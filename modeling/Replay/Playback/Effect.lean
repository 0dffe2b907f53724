import Replay.Playback.Error
import Replay.Host
import Replay.Surface.Target

/-!
# What steps do to a host

The effect of the steps that act on the host at once: a selection, a script, a command. A command
runs on the target of its step; in an action that treats its objects one by one, it runs once for
each selected object, alone selected and active, and the selection is put back afterwards.
-/

set_option autoImplicit false

namespace Replay

namespace Host

variable {σ : Type}

/-! ## Selections and scripts -/

/-- Selects those objects of a list that exist. -/
def selectExisting (h : Host σ) (names : List String) (s : σ) : σ :=
  names.foldl (fun s name => if h.hasObject s name then h.select s name true else s) s

/-- Makes a selection (`select_objects`). The objects in the list come first, also if the main one
is missing. -/
def makeSelection (h : Host σ) (sel : Selection) (s : σ) : Except PlayError Unit × σ :=
  let cleared := if sel.keep then s else h.deselectAll s
  let listed := h.selectExisting sel.objects cleared
  match sel.main? with
  | none => (.ok (), listed)
  | some name =>
    if h.showsObject listed name then
      (.ok (), h.select (h.setActive listed (some name)) name true)
    else (.error (.missingObject name), listed)

/-- Runs a script; its report names the step. -/
def playScript (h : Host σ) (stepId source : String) (s : σ) : Except PlayError Unit × σ :=
  let script : Script := ⟨stepId, source⟩
  match h.runScript s script with
  | (.ok (), s) => (.ok (), s)
  | (.error report, s) => (.error (.script (script.blame report)), s)

/-! ## Commands -/

/-- Runs a command once for each object of a list, alone selected and active, up to the first failure
(the loop of `invoke_individually`). -/
def invokeForEach (h : Host σ) (i : Invocation) (surface : Surface) :
    List String → σ → Except String Unit × σ
  | [], s => (.ok (), s)
  | name :: rest, s =>
    match h.invoke (h.setActive (h.select s name true) (some name)) i surface with
    | (.ok (), s) => invokeForEach h i surface rest (h.select s name false)
    | (.error report, s) => (.error report, h.select s name false)

/-- Selects or deselects every object of a list. -/
def selectEach (h : Host σ) (names : List String) (on : Bool) (s : σ) : σ :=
  names.foldl (fun s name => h.select s name on) s

/-- Runs a command for the selected objects one by one (`invoke_individually`). The selection is put
back, and so is the active object if it still exists. -/
def invokeIndividually (h : Host σ) (i : Invocation) (surface : Surface) (s : σ) :
    Except String Unit × σ :=
  let names := h.selected s
  let active := h.active s
  let (result, after) := h.invokeForEach i surface names (h.selectEach names false s)
  let restored := h.selectEach names true after
  (result, h.setActive restored (active.filter (h.hasObject restored)))

/-- Runs a command in the way that an action treats its objects. -/
def invokeGrouped (h : Host σ) (grouping : Grouping) (i : Invocation) (surface : Surface) (s : σ) :
    Except String Unit × σ :=
  match grouping with
  | .group => h.invoke s i surface
  | .individual => h.invokeIndividually i surface s

/-- The state while a target is used (after `resolve`). -/
def occupy (h : Host σ) (during : Layout) (t : Target) (s : σ) : σ :=
  match t.borrowed with
  | some _ => h.setLayout s during
  | none => s

/-- The state after a target has been used (after `restore`). -/
def vacate (h : Host σ) (t : Target) (s : σ) : σ :=
  match t.borrowed with
  | some _ => h.setLayout s ((h.layout s).release t)
  | none => s

/-- The state with the area of a surface drawn again (`tag_redraw`). -/
def redrawAt (h : Host σ) (surface : Surface) (s : σ) : σ :=
  match surface.area with
  | some area => h.redraw s area
  | none => s

/-- Whether a command plays the local action with its properties left at their defaults (the guard of
`run_plain`). -/
def playsItself : Command → Bool
  | .call c => c.id == "ar.local_play" && c.hasExactly [("id", "\"\""), ("index", "-1")]
  | _ => false

/-- Runs the command of a step (`run_plain`). -/
def playCommand (h : Host σ) (grouping : Grouping) (base : Surface) (step : Step) (c : Command)
    (s : σ) : Except PlayError Unit × σ :=
  if playsItself c then (.error .selfPlay, s)
  else
    let raw := String.ofList (Text.trim step.text.toList)
    let (during, target) := (h.layout s).aim base step.requiredType?
    match h.invokeGrouped grouping ⟨c, step.callMode, raw⟩ target.surface
        (h.occupy during target s) with
    | (.ok (), s) => (.ok (), h.redrawAt target.surface (h.vacate target s))
    | (.error report, s) => (.error (.invocation raw report), h.vacate target s)

end Host

end Replay
