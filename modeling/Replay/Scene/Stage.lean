import Replay.Scene.Operator
import Replay.Host

/-!
# Stages

A stage is a host in memory: a scene, the operators it knows, a journal of what has been run, and
the areas it was asked to draw again.

* `Stage.perform` — runs a command, without a trace
* `Stage.invoke` — runs a command and enters it in the journal if it succeeds
* `Stage.runScript` — runs the lines of a script up to the first that fails
* `Stage.host` — the stage as a host
-/

set_option autoImplicit false

namespace Replay

open Text

/-- One command that has been run, and how things stood right after it. -/
structure JournalEntry where
  command : String
  surface : Surface
  /-- The type of editor in the surface's area. -/
  uiType : Option String
  active : Option String
  selected : List String
deriving DecidableEq, Repr

/-- A host in memory (`SceneHost`). -/
structure Stage where
  scene : Scene
  operators : OperatorTable
  journal : List JournalEntry
  /-- The areas to be drawn again, in the order of the requests. -/
  redraws : List Nat

namespace Stage

/-- A stage for a scene, with operators (`with_registry`). If the scene leaves the user's area open,
it is that of the first window. -/
def equipped (scene : Scene) (operators : OperatorTable) : Stage :=
  let ambient := match scene.ambient.area, scene.layout.windows.head? with
    | none, some w => Surface.ofWindow w
    | _, _ => scene.ambient
  ⟨{ scene with ambient := ambient }, operators, [], []⟩

/-- A stage for a scene with the built-in operators (`SceneHost`'s `new`). -/
def ofScene (scene : Scene) : Stage := equipped scene .builtIn

/-- What running a command does to the scene (`dispatch`). -/
def perform (st : Stage) (command : Command) (surface : Surface) : Except SceneError Unit × Scene :=
  match command with
  | .call c =>
    match st.operators.get? c.id with
    | none => (.error (.unknownOperator c.id), st.scene)
    | some operator =>
      if operator.area.isSome ∧ st.scene.layout.typeAt? surface ≠ operator.area then
        (.error (.wrongSurface c.id), st.scene)
      else operator.run c st.scene
  | .assign path value =>
    match Literal.value? value with
    | none => (.error (.invalidText value), st.scene)
    | some j =>
      (.ok (), st.scene.setProperty (String.ofList (join ['.'] (path.map String.toList))) j)
  | .expression text => (.error (.invalidText text), st.scene)

/-- The journal's entry for a command that has just been run. -/
def entryFor (scene : Scene) (i : Invocation) (surface : Surface) : JournalEntry :=
  ⟨i.rendered, surface, scene.layout.typeAt? surface, scene.active, scene.selected⟩

/-- Runs a command on a surface. -/
def invoke (st : Stage) (i : Invocation) (surface : Surface) : Except SceneError Unit × Stage :=
  match st.perform i.command surface with
  | (.error e, scene) => (.error e, { st with scene := scene })
  | (.ok (), scene) =>
    (.ok (), { st with scene := scene, journal := st.journal ++ [entryFor scene i surface] })

/-- Runs the lines of a script on a surface, up to the first that fails (the loop of `run_script`).
Blank lines and those that start with a number sign are passed over; `number` is that of the first
line. -/
def runLines (surface : Surface) : Nat → List (List Char) → Stage → Except SceneError Unit × Stage
  | _, [], st => (.ok (), st)
  | number, line :: rest, st =>
    let text := trim line
    if text = [] ∨ text.head? = some '#' then runLines surface (number + 1) rest st
    else
      match st.invoke (.ofText (String.ofList text) .execute) surface with
      | (.error e, st) => (.error (.inScript number e), st)
      | (.ok (), st) => runLines surface (number + 1) rest st

/-- Runs a script on the surface that the user works on at its start. -/
def runScript (st : Stage) (s : Script) : Except SceneError Unit × Stage :=
  runLines st.scene.ambient 1 (lines s.source.toList) st

/-- The stage with its scene changed. -/
def onScene (st : Stage) (f : Scene → Scene) : Stage := { st with scene := f st.scene }

/-- A result with an error in words. -/
def worded {α : Type} (r : Except SceneError α × Stage) : Except String α × Stage :=
  (r.1.mapError SceneError.message, r.2)

/-- The stage as a host. -/
def host : Host Stage where
  ambient st := st.scene.ambient
  layout st := st.scene.layout
  setLayout st l := st.onScene fun s => { s with layout := l }
  hasObject st := st.scene.hasObject
  showsObject st := st.scene.showsObject
  selected st := st.scene.selected
  select st name on := st.onScene fun s => s.select name on
  deselectAll st := st.onScene Scene.deselectAll
  active st := st.scene.active
  setActive st name := st.onScene fun s => { s with active := name }
  invoke st i surface := worded (st.invoke i surface)
  evaluate st condition := worded (st.scene.satisfies condition, st)
  runScript st s := worded (st.runScript s)
  redraw st area := { st with redraws := st.redraws ++ [area] }

end Stage

end Replay
