import Mathlib.Data.List.Forall2
import Replay.Proofs.Host.Scripts
import Replay.Proofs.Playback.Structured

/-!
# Scripts and recorded commands

A script does what its commands do as the steps of an action: a pass over the steps runs on the same
area as the script, and each command does the same to both stages. So both come to their ends, or
both fail at the same command, and leave the same scene.

* `Pass.walk_spoken` — a pass goes through recorded commands as the script through its lines
* `Session.play_pass` — an action without waits for a render is one pass at first
* `Session.script_as_commands` — a script and its commands come to the same
-/

set_option autoImplicit false

namespace Replay

open Text Stage

/-! ## Recorded commands -/

theorem Step.Records.reads {step : Step} {command : String} (records : step.Records command)
    (outward : Command.Outward command) :
    step.instruction = .ok (.plain (Command.parse command)) := by
  rw [Step.instruction, records.text, Instruction.parse, outward.plain]

/-- No recorded command waits for a render. -/
theorem Step.afterRender?_of_records {steps : List Step} {commands : List String}
    (records : List.Forall₂ Step.Records steps commands)
    (outward : ∀ command ∈ commands, Command.Outward command) : afterRender? steps = none := by
  refine afterRender?_eq_none ?_
  induction records with
  | nil => exact List.forall_mem_nil _
  | @cons step command steps commands hstep _ ih =>
    obtain ⟨hcommand, hcommands⟩ := List.forall_mem_cons.mp outward
    refine List.forall_mem_cons.mpr ⟨?_, ih hcommands⟩
    rw [awaitsRender, hstep.reads hcommand]

namespace Pass

variable {p : Pass Stage} {surface : Surface} {step : Step} {command : String} {a a' : Stage}

/-- A pass over a recorded command goes on if the command succeeds, and fails with it. -/
theorem walk_records (hosted : p.rig.host = Stage.host) (grouped : p.grouping = .group)
    (area : p.base.area = surface.area) {s : Session Stage} (alike : a.Alike s.host)
    (records : step.Records command) (outward : Command.Outward command) :
    ∃ b', (a.invoke (.ofText command .execute) surface).2.Alike b' ∧
      ∀ rest, p.walk 0 (step :: rest) s =
        match (a.invoke (.ofText command .execute) surface).1 with
        | .ok () => p.walk 0 rest { s with host := b' }
        | .error e =>
          .failAt p.source step (.invocation (String.ofList (trim command.toList)) e.message)
            { s with host := b' } := by
  obtain ⟨b', hplay, halike⟩ := alike.playCommand records outward area
  refine ⟨b', halike, fun rest => ?_⟩
  have hreads := records.reads outward
  have heffect : step.effect? p.rig.host p.grouping p.base =
      some (Stage.host.playCommand .group p.base step (Command.parse command)) := by
    rw [Step.effect?, hreads, hosted, grouped]
  rw [p.walk_effect heffect, act, hplay]
  cases (a.invoke (.ofText command .execute) surface).1 <;> rfl

/-- **A pass goes through recorded commands as a script goes through its lines.** -/
theorem walk_spoken (hosted : p.rig.host = Stage.host) (grouped : p.grouping = .group)
    (area : p.base.area = surface.area) {lines : List (List Char)} {number : Nat}
    {steps : List Step} {s : Session Stage} (alike : a.Alike s.host)
    (records : List.Forall₂ Step.Records steps (Script.spoken lines))
    (outward : ∀ command ∈ Script.spoken lines, Command.Outward command)
    (reached : runLines surface number lines a = (.ok (), a')) :
    ∃ b', a'.Alike b' ∧
      ∀ rest, p.walk 0 (steps ++ rest) s = p.walk 0 rest { s with host := b' } := by
  induction lines generalizing number steps a s with
  | nil =>
    cases reached
    cases records
    exact ⟨s.host, alike, fun _ => rfl⟩
  | cons line lines ih =>
    by_cases hline : Script.Silent line
    · rw [runLines_silent hline] at reached
      rw [Script.spoken, if_pos hline] at records outward
      exact ih alike records outward reached
    · rw [runLines_spoken hline] at reached
      rw [Script.spoken, if_neg hline] at records outward
      cases records with
      | @cons step _ steps _ hstep hsteps =>
        obtain ⟨hcommand, hcommands⟩ := List.forall_mem_cons.mp outward
        obtain ⟨b, hb, hwalk⟩ := walk_records hosted grouped area alike hstep hcommand
        cases hinvoke : a.invoke (.ofText (String.ofList (trim line)) .execute) surface with
        | mk result next =>
          rw [hinvoke] at reached hb hwalk
          cases result with
          | error e => cases reached
          | ok done =>
            obtain ⟨b', halike, hrest⟩ := ih (s := { s with host := b }) hb hsteps hcommands reached
            exact ⟨b', halike, fun rest => (hwalk (steps ++ rest)).trans (hrest rest)⟩

end Pass

/-! ## One pass -/

namespace Session

section

variable {σ : Type} {rig : Rig σ} {s : Session σ} {collection : Collection} {id : String}
  {action : Action}

/-- The first pass of an action. -/
def opening (rig : Rig σ) (budget : Nat) (collection : Collection) (id : String) (action : Action)
    (s : Session σ) : Pass σ where
  rig := rig
  source := .start collection id action.steps
  grouping := action.grouping
  base := rig.host.ambient s.host
  budget := budget
  inner := Resumption.drive rig budget

/-- An action without waits for a render begins with a pass on the session as it is. -/
theorem play_pass (found : s.library.action? collection id = some action)
    (quiet : Step.afterRender? (action.steps.filter Step.active) = none) (budget : Nat) :
    s.play rig (budget + 1) collection id =
      match (s.opening rig budget collection id action).walk 0
        (action.steps.filter Step.active) s with
      | .done .finished s => .done .finished s
      | .done .suspended s => .done .suspended s
      | .done (.proceed next) s => next.drive rig budget s
      | .failed e s => .failed e s
      | .exhausted => .exhausted := by
  have hannounce : s.announce (.start collection id action.steps) = s := by
    have hfresh : (Resumption.start collection id action.steps).fresh = true := rfl
    have hquiet : Step.afterRender? (Resumption.start collection id action.steps).steps = none :=
      quiet
    rw [announce, if_pos hfresh, hquiet]
  have hdepth : ¬rig.settings.maxNesting < (Resumption.start collection id action.steps).depth :=
    Nat.not_lt_zero _
  have hpass : (Resumption.start collection id action.steps).pass rig budget
      (Resumption.drive rig budget) s =
        (s.opening rig budget collection id action).walk 0
          (action.steps.filter Step.active) s := by
    have hfound : s.library.action? (Resumption.start collection id action.steps).collection
      (Resumption.start collection id action.steps).actionId = some action := found
    rw [Resumption.pass, hfound]
    dsimp only
    rw [hannounce]
    rfl
  rewrite [play_of_found found, Resumption.drive, if_neg hdepth, hpass]
  rfl

end

/-! ## A script and its commands -/

section

variable {rig : Rig Stage} (hosted : rig.host = Stage.host) {s : Session Stage}
  {collection : Collection} {id : String} {action : Action}
  (found : s.library.action? collection id = some action) (budget : Nat)

include hosted found

/-- An action that is one script does what the lines of the script do. -/
theorem play_script {step : Step} {source : String}
    (single : action.steps.filter Step.active = [step])
    (script : step.instruction = .ok (.directive (.script source))) :
    ∃ t : Session Stage,
      t.host = (runLines s.host.scene.ambient 1 (lines source.toList) s.host).2 ∧
      s.play rig (budget + 1) collection id =
        match (runLines s.host.scene.ambient 1 (lines source.toList) s.host).1 with
        | .ok () => .done .finished t
        | .error e => .failed (.script ((⟨step.id, source⟩ : Script).blame e.message)) t := by
  have hquiet : Step.afterRender? (action.steps.filter Step.active) = none := by
    refine Step.afterRender?_eq_none ?_
    rw [single, List.forall_mem_singleton, Step.awaitsRender, script]
  have heffect : step.effect? rig.host action.grouping (rig.host.ambient s.host) =
      some (rig.host.playScript step.id source) := by
    rw [Step.effect?, script]
  have hrun : rig.host.runScript s.host ⟨step.id, source⟩ =
      worded (runLines s.host.scene.ambient 1 (lines source.toList) s.host) := by
    rw [hosted]
    rfl
  rw [play_pass found hquiet, single,
    (s.opening rig budget collection id action).walk_effect heffect]
  unfold Pass.act Host.playScript
  dsimp only
  rw [hrun]
  rcases runLines s.host.scene.ambient 1 (lines source.toList) s.host with ⟨e | _, st⟩
  · exact ⟨_, rfl, rfl⟩
  · exact ⟨_, rfl, rfl⟩

section

variable {source : String} (grouped : action.grouping = .group)
  (records : List.Forall₂ Step.Records (action.steps.filter Step.active) (Script.commands source))
  (outward : ∀ command ∈ Script.commands source, Command.Outward command)
  {st : Stage}

include grouped records outward

/-- The commands of a script that comes to its end are played to the end. -/
theorem play_commands_done
    (reached : runLines s.host.scene.ambient 1 (lines source.toList) s.host = (.ok (), st)) :
    ∃ t : Session Stage, st.Alike t.host ∧
      s.play rig (budget + 1) collection id = .done .finished t := by
  have harea : (rig.host.ambient s.host).area = s.host.scene.ambient.area := by rw [hosted]; rfl
  obtain ⟨b', halike, hwalk⟩ := Pass.walk_spoken (p := s.opening rig budget collection id action)
    hosted grouped harea (.refl s.host) records outward reached
  have hend := hwalk []
  rw [List.append_nil] at hend
  refine ⟨{ s with host := b' }, halike, ?_⟩
  rw [play_pass found (Step.afterRender?_of_records records outward), hend]
  rfl

/-- Those of a script that fails at a line are played up to the command of that line. -/
theorem play_commands_failed {before after : List (List Char)} {line : List Char}
    {cause : SceneError} (cut : lines source.toList = before ++ line :: after)
    (fails : FailsAt s.host.scene.ambient 1 before line cause s.host st) :
    ∃ t : Session Stage, st.Alike t.host ∧
      s.play rig (budget + 1) collection id =
        .failed (.invocation (String.ofList (trim line)) cause.message) t := by
  have harea : (rig.host.ambient s.host).area = s.host.scene.ambient.area := by rw [hosted]; rfl
  have hquiet := Step.afterRender?_of_records records outward
  have hcommands : Script.commands source =
      Script.spoken before ++ String.ofList (trim line) :: Script.spoken after := by
    rw [Script.commands, cut, Script.spoken_append, Script.spoken, if_neg fails.spoken]
  rw [hcommands] at records outward
  obtain ⟨hbefore, hafter⟩ := List.forall_mem_append.mp outward
  have hfirst := List.forall₂_take_append _ _ _ records
  have hlast := List.forall₂_drop_append _ _ _ records
  have hsplit := List.take_append_drop (Script.spoken before).length
    (action.steps.filter Step.active)
  generalize (action.steps.filter Step.active).take (Script.spoken before).length = front
    at hfirst hsplit
  generalize (action.steps.filter Step.active).drop (Script.spoken before).length = back
    at hlast hsplit
  obtain ⟨b, hb, hwalk⟩ := Pass.walk_spoken (p := s.opening rig budget collection id action)
    hosted grouped harea (.refl s.host) hfirst hbefore fails.reached
  cases hlast with
  | @cons step _ rest _ hstep _ =>
    obtain ⟨b', halike, hfailing⟩ := Pass.walk_records
      (p := s.opening rig budget collection id action) (s := { s with host := b })
      hosted grouped harea hb hstep (hafter _ List.mem_cons_self)
    rw [fails.refused] at halike hfailing
    have htrim : trim (trim line) = trim line := (trimmed_trim line).trim_eq
    refine ⟨({ s with host := b' } : Session Stage).alert (.start collection id action.steps) step,
      halike, ?_⟩
    rw [play_pass found hquiet, ← hsplit, hwalk, hfailing, String.toList_ofList, htrim]
    rfl

end

end

/-- **A script does what its commands do.** Played as one step, or as an action that records its
commands one by one, in sessions with the same stage, both come to their ends or both fail. The
scenes are the same then, and so are the texts in the journals. If they fail, then at the first line
of the script that fails: the lines before it have been run and no other has, and the report on the
script has the number of that line in its text, counted from one. -/
theorem script_as_commands {rig : Rig Stage} (hosted : rig.host = Stage.host)
    {s s' : Session Stage} (same : s'.host = s.host) (builtIn : s.host.operators = .builtIn)
    {collection collection' : Collection} {id id' : String} {scripted recorded : Action}
    (found : s.library.action? collection id = some scripted)
    (found' : s'.library.action? collection' id' = some recorded) {step : Step} {source : String}
    (single : scripted.steps.filter Step.active = [step])
    (script : step.instruction = .ok (.directive (.script source)))
    (grouped : recorded.grouping = .group)
    (records : List.Forall₂ Step.Records (recorded.steps.filter Step.active)
      (Script.commands source))
    (outward : ∀ command ∈ Script.commands source, Command.Outward command) (budget : Nat) :
    ∃ t t' : Session Stage, t.host.Alike t'.host ∧
      ((s.play rig (budget + 1) collection id = .done .finished t ∧
          s'.play rig (budget + 1) collection' id' = .done .finished t') ∨
        ∃ before line after cause, lines source.toList = before ++ line :: after ∧
          FailsAt s.host.scene.ambient 1 before line cause s.host t.host ∧
          s.play rig (budget + 1) collection id =
            .failed (.script (Script.report step.id source (before.length + 1) cause)) t ∧
          s'.play rig (budget + 1) collection' id' =
            .failed (.invocation (String.ofList (trim line)) cause.message) t') := by
  obtain ⟨t, ht, hplay⟩ := play_script hosted found budget single script
  rw [← same] at ht hplay builtIn ⊢
  cases hrun : runLines s'.host.scene.ambient 1 (lines source.toList) s'.host with
  | mk result st =>
    rw [hrun] at ht hplay
    obtain rfl : t.host = st := ht
    cases result with
    | ok done =>
      obtain ⟨t', halike, hplay'⟩ :=
        play_commands_done hosted found' budget grouped records outward hrun
      exact ⟨t, t', halike, .inl ⟨hplay, hplay'⟩⟩
    | error e =>
      have hatomic : s'.host.operators.Atomic := builtIn ▸ OperatorTable.builtIn_atomic
      obtain ⟨before, line, after, cause, hcut, hfails, rfl⟩ := runLines_failed hatomic hrun
      obtain ⟨t', halike, hplay'⟩ :=
        play_commands_failed hosted found' budget grouped records outward hcut hfails
      dsimp only at hplay
      rw [Script.blame_report, Nat.add_comm 1 before.length] at hplay
      exact ⟨t, t', halike, .inr ⟨before, line, after, cause, hcut, hfails, hplay, hplay'⟩⟩

end Session

/-- A script with a comment, a blank line and a command in front of what is no command. -/
def faulty : String := "# x\n\nbpy.context.x = 1\n fly()"

/-- The script as one step. -/
def faultyScript : Step := .recorded "s"
  ("ar.event:\x7b\"Type\":\"Run Script\",\"ScriptText\":" ++
    "\"# x\\n\\nbpy.context.x = 1\\n fly()\"\x7d")

/-- The commands of the script as steps. -/
def faultySteps : List Step := [.recorded "x" "bpy.context.x = 1", .recorded "f" "fly()"]

/-- The keys of the properties of a session's scene. -/
def Session.keys (s : Session Stage) : List String :=
  s.host.scene.properties.entries.map Prod.fst

theorem faultyScript_outcome :
    (Turn.rehearse 2 [faultyScript]).failure? Session.keys =
      some (.script ("Traceback (most recent call last):\n" ++
        "  File \"s\", line 4, in <module>\ninvalid syntax: fly()"), ["x"]) := by
  decide +kernel

theorem faultySteps_outcome :
    (Turn.rehearse 2 faultySteps).failure? Session.keys =
      some (.invocation "fly()" "invalid syntax: fly()", ["x"]) := by
  decide +kernel

theorem faulty_stopped :
    ∃ t t' : Session Stage, t.host.Alike t'.host ∧ t.keys = ["x"] ∧
      (Session.rehearsal [faultyScript]).play .rehearsal 2 .locals "a" =
        .failed (.script ("Traceback (most recent call last):\n" ++
          "  File \"s\", line 4, in <module>\ninvalid syntax: fly()")) t ∧
      (Session.rehearsal faultySteps).play .rehearsal 2 .locals "a" =
        .failed (.invocation "fly()" "invalid syntax: fly()") t' := by
  obtain ⟨s, hscript, hkeys⟩ := Run.of_failure? faultyScript_outcome
  obtain ⟨s', hcommands, -⟩ := Run.of_failure? faultySteps_outcome
  have hreads : faultyScript.instruction = .ok (.directive (.script faulty)) := by decide +kernel
  have hspoken : Script.commands faulty = ["bpy.context.x = 1", "fly()"] := by decide +kernel
  have hsame : (Session.rehearsal faultySteps).host = (Session.rehearsal [faultyScript]).host := rfl
  have hfound : ∀ steps, (Session.rehearsal steps).library.action? .locals "a" =
    some { Action.titled "a" "a" with steps := steps } := fun _ => rfl
  have hrecords : List.Forall₂ Step.Records (faultySteps.filter Step.active)
      (Script.commands faulty) := by
    rw [hspoken]
    exact .cons ⟨rfl, rfl, rfl⟩ (.cons ⟨rfl, rfl, rfl⟩ .nil)
  have houtward : ∀ command ∈ Script.commands faulty, Command.Outward command := by
    have hassign : Command.parse "bpy.context.x = 1" = .assign ["x"] "1" := by decide +kernel
    have hexpression : Command.parse "fly()" = .expression "fly()" := by decide +kernel
    rw [hspoken, List.forall_mem_cons, List.forall_mem_singleton]
    refine ⟨⟨by decide +kernel, fun c hc => ?_⟩, ⟨by decide +kernel, fun c hc => ?_⟩⟩
    · cases hassign.symm.trans hc
    · cases hexpression.symm.trans hc
  obtain ⟨t, t', halike, ⟨hdone, -⟩ | ⟨before, line, after, cause, -, -, hplay, hplay'⟩⟩ :=
    Session.script_as_commands (rfl : Rig.rehearsal.host = _) hsame rfl (hfound [faultyScript])
      (hfound faultySteps) rfl hreads rfl hrecords houtward 1
  · cases hscript.symm.trans hdone
  · obtain ⟨-, rfl⟩ := Run.failed.inj (hscript.symm.trans hplay)
    obtain ⟨-, rfl⟩ := Run.failed.inj (hcommands.symm.trans hplay')
    exact ⟨s, s', halike, hkeys, hscript, hcommands⟩

end Replay
