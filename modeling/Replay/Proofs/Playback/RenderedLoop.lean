import Replay.Proofs.Playback.Straight

/-!
# Counted loops with a wait for a render

A wait for a render queues the step behind it, and nothing else. In the body of a counted loop the
rounds that are left are lost with it: playback goes on behind the wait, passes over the end of the
loop, and the body has been played once.

* `Session.render_ends_loop` — a counted loop with a wait for a render in its body is played once
* `renderedRounds_once` — two rounds of which one is played
-/

set_option autoImplicit false

namespace Replay

variable {σ : Type}

/-! ## Commands that have been run -/

/-- Whether a step is a command for the host. -/
def Step.isCommand (step : Step) : Bool :=
  match step.instruction with
  | .ok (.plain _) => true
  | _ => false

/-- The commands among some steps. -/
def Step.commands (steps : List Step) : List Step := steps.filter Step.isCommand

/-- The commands that some turns have run, one after the other. -/
def Take.commands (takes : List Take) : List Step := Step.commands (Take.allSteps takes)

theorem Step.commands_append (a b : List Step) : commands (a ++ b) = commands a ++ commands b :=
  List.filter_append a b

theorem Step.commands_cons_of_bracket {step : Step} (h : step.bracket ≠ .neither)
    (rest : List Step) : commands (step :: rest) = commands rest := by
  refine List.filter_cons_of_neg ?_
  unfold isCommand
  unfold bracket at h
  split at h <;> simp_all

/-! ## One loop -/

/-- The end of a loop whose body has no loops is right behind the body. -/
theorem Step.closing?_body {body : List Step} (flat : ∀ step ∈ body, step.bracket = .neither)
    {closing : Step} (closes : closing.bracket = .closes) (rest : List Step) :
    closing? (body ++ closing :: rest) = some body.length := by
  unfold closing?
  induction body with
  | nil => simp [closingFrom, closes]
  | cons step body ih =>
    obtain ⟨hstep, hbody⟩ := List.forall_mem_cons.mp flat
    simp [closingFrom, hstep, ih hbody]

/-- Steps that begin no loop make no difference in front. -/
theorem EachLoop.append {fit : Loop → List Step → Prop} {front rest : List Step}
    (flat : ∀ step ∈ front, step.bracket ≠ .opens) (h : EachLoop fit rest) :
    EachLoop fit (front ++ rest) := by
  induction front with
  | nil => exact h
  | cons step front ih =>
    obtain ⟨hstep, hfront⟩ := List.forall_mem_cons.mp flat
    exact cons_iff.mpr ⟨fun l place reads _ => absurd (Step.bracket_of_loop reads) hstep, ih hfront⟩

/-- An action whose only loop is counted, entered, and has a wait for a render in its body. -/
structure RenderedLoop (before : List Step) (opening : Step) (count : Int) (body : List Step)
    (closing : Step) (after : List Step) : Prop where
  opens : opening.loop?.map Loop.repetition = some (.ok (.times count))
  positive : 0 < count
  closes : closing.instruction = .ok (.directive .loopEnd)
  flat : ∀ step ∈ body, step.bracket = .neither
  only : ∀ step ∈ before ++ after, step.bracket ≠ .opens
  waits : ∃ step ∈ body, step.awaitsRender = true

namespace RenderedLoop

variable {before : List Step} {opening : Step} {count : Int} {body : List Step} {closing : Step}
  {after : List Step}

theorem reads (h : RenderedLoop before opening count body closing after) :
    ∃ l, opening.instruction = .ok (.directive (.loop l)) ∧ l.repetition = .ok (.times count) := by
  obtain ⟨l, hl, hrepeats⟩ := Option.map_eq_some_iff.mp h.opens
  exact ⟨l, Step.loop?_eq_some.mp hl, hrepeats⟩

theorem bracket_closing (h : RenderedLoop before opening count body closing after) :
    closing.bracket = .closes := by
  simp [Step.bracket, h.closes]

/-- The action is played straight on. -/
theorem straight (h : RenderedLoop before opening count body closing after) :
    Straight (before ++ opening :: (body ++ closing :: after)) := by
  obtain ⟨l, hreads, hrepeats⟩ := h.reads
  have hflat : ∀ step ∈ body ++ closing :: after, step.bracket ≠ .opens := by
    intro step hstep
    rcases List.mem_append.mp hstep with hbody | hstep
    · rw [h.flat step hbody]
      nofun
    · rcases List.mem_cons.mp hstep with rfl | hafter
      · rw [h.bracket_closing]
        nofun
      · exact h.only step (List.mem_append_right _ hafter)
  refine EachLoop.append (fun step hstep => h.only step (List.mem_append_left _ hstep))
    (EachLoop.cons_iff.mpr ⟨fun l' place reads closed => ?_, .of_no_opening hflat⟩)
  cases hreads.symm.trans reads
  cases (Step.closing?_body h.flat h.bracket_closing after).symm.trans closed
  rw [List.take_left]
  exact ⟨⟨count, hrepeats, h.positive⟩, h.waits⟩

/-- The commands of the action. -/
theorem commands (h : RenderedLoop before opening count body closing after) :
    Step.commands (before ++ opening :: (body ++ closing :: after)) =
      Step.commands before ++ Step.commands body ++ Step.commands after := by
  obtain ⟨l, hreads, -⟩ := h.reads
  have hopening : opening.bracket ≠ .neither := by simp [Step.bracket_of_loop hreads]
  have hclosing : closing.bracket ≠ .neither := by simp [h.bracket_closing]
  rw [Step.commands_append, Step.commands_cons_of_bracket hopening, Step.commands_append,
    Step.commands_cons_of_bracket hclosing, List.append_assoc]

end RenderedLoop

/-- Some rounds of a list are one if there is one of them, or nothing in it. -/
theorem eq_flatten_replicate_iff {α : Type} {l : List α} {n : Nat} :
    l = (List.replicate n l).flatten ↔ n = 1 ∨ l = [] := by
  constructor
  · intro h
    have hlength := congrArg List.length h
    rw [List.length_flatten, List.map_replicate, List.sum_replicate_nat] at hlength
    rcases Nat.eq_zero_or_pos l.length with hzero | hpos
    · exact .inr (List.eq_nil_of_length_eq_zero hzero)
    · exact .inl (Nat.eq_of_mul_eq_mul_right hpos (by omega))
  · rintro (rfl | rfl)
    · simp
    · simp

/-- **A counted loop with a wait for a render in its body is played once.** Let such a loop be the
only one of an action that is played on its own, with signals that a render is complete coming only
when nothing is scheduled. The action is played to its end; and unless a step fails, the commands
that have been run by then are those in front of the loop, those in its body and those behind it.
They are what the count says only if it says one round, or there is no command in the body. -/
theorem Session.render_ends_loop (rig : Rig σ) (s : Session σ) (idle : s.timetable.waiting = [])
    (quiet : s.waits = []) {collection : Collection} {id : String} {action : Action}
    (found : s.library.action? collection id = some action)
    (distinct : (action.steps.map Step.id).Nodup) {before : List Step} {opening : Step}
    {count : Int} {body : List Step} {closing : Step} {after : List Step}
    (loop : RenderedLoop before opening count body closing after)
    (shape : action.steps.filter Step.active = before ++ opening :: (body ++ closing :: after)) :
    (∃ budget result s₁, s.play rig budget collection id = .ofResult result s₁) ∧
    ∀ events result s₁, (Turn.play collection id).Plays rig s events result s₁ →
      (∃ takes s₂, Unfolds rig Cue.InTurn [⟨.play collection id, events, result⟩] s₁ takes s₂ ∧
        Relay.Over takes s₂) ∧
      ∀ takes s₂, Unfolds rig Cue.WhenIdle [⟨.play collection id, events, result⟩] s₁ takes s₂ →
        (∀ t ∈ takes, t.fails = false) → s₂.pending = 0 → s₂.waits = [] →
          Take.commands takes =
            Step.commands before ++ Step.commands body ++ Step.commands after ∧
          (Take.commands takes = Step.commands before ++
              (List.replicate count.toNat (Step.commands body)).flatten ++ Step.commands after ↔
            count = 1 ∨ Step.commands body = []) := by
  let k : Solo σ := ⟨rig, s.library, collection, id, action, found, distinct⟩
  have straight : Straight k.steps := by
    rw [Solo.steps, shape]
    exact loop.straight
  have hruns := Relay.straight_runs k straight s.host
  refine ⟨Relay.play_ends rfl hruns, fun events result s₁ hplays => ?_⟩
  obtain ⟨m, hunderway⟩ := Relay.underway_of_play idle quiet rfl hruns hplays
  refine ⟨hunderway.completes, fun takes s₂ hunfolds sound hidle hwaits => ?_⟩
  obtain ⟨m', hend⟩ := Relay.underway_of_unfolds hunderway (hunfolds.inTurn sound)
  have hcommands : Take.commands takes =
      Step.commands before ++ Step.commands body ++ Step.commands after := by
    rw [Take.commands, hend.steps_eq sound hidle hwaits, ← loop.commands, ← shape]
    rfl
  refine ⟨hcommands, ?_⟩
  rw [hcommands, List.append_left_inj, List.append_right_inj, eq_flatten_replicate_iff]
  have hpositive := loop.positive
  exact or_congr_left (by omega)

/-- A loop of two rounds, each of which counts a property up and waits for a render. -/
def renderedRounds : List Step := [
  .recorded "l" "ar.event:\x7b\"Type\":\"Loop\",\"StatementType\":\"repeat\",\"RepeatCount\":2\x7d",
  .recorded "n" "bpy.ops.scene.increment(key=\"n\")",
  .recorded "r" "ar.event:\x7b\"Type\":\"Render Complete\"\x7d",
  .recorded "e" "ar.event:\x7b\"Type\":\"EndLoop\"\x7d"]

theorem renderedRounds_played :
    (Turn.rehearse 10 renderedRounds).seen? Session.pending = some (some .suspended, 0) := by
  decide +kernel

/-- After one render nothing is left to do. -/
theorem renderedRounds_outcome :
    ((Turn.rehearse 10 renderedRounds).andThen fun _ s =>
        (s.renderComplete .rehearsal).2.tick .rehearsal 10 Time.second).seen?
      (fun s => (s.pending, s.waits, s.host.journal.length)) =
      some (some ⟨1, 0, []⟩, 0, [], 1) := by
  decide +kernel

/-- **One of two rounds is played.** -/
theorem renderedRounds_once :
    ∃ s₁ report s₂, Turn.rehearse 10 renderedRounds = .done .suspended s₁ ∧ s₁.pending = 0 ∧
      (s₁.renderComplete .rehearsal).2.tick .rehearsal 10 Time.second = .done report s₂ ∧
      report.failures = [] ∧ s₂.pending = 0 ∧ s₂.waits = [] ∧ s₂.host.journal.length ≠ 2 := by
  obtain ⟨s₁, hplay, hidle⟩ := Run.of_seen?_done renderedRounds_played
  obtain ⟨s₂, hrun, hseen⟩ := Run.of_seen?_done renderedRounds_outcome
  rw [hplay] at hrun
  simp only [Prod.mk.injEq] at hseen
  obtain ⟨hpending, hwaits, hjournal⟩ := hseen
  exact ⟨s₁, _, s₂, hplay, hidle, hrun, rfl, hpending, hwaits, by omega⟩

theorem renderedRounds_commands :
    ∃ takes s₂, Take.commands takes = [.recorded "n" "bpy.ops.scene.increment(key=\"n\")"] ∧
      (∀ t ∈ takes, t.fails = false) ∧ s₂.pending = 0 ∧ s₂.waits = [] ∧
      ∃ first s₁, Unfolds Rig.rehearsal Cue.WhenIdle [first] s₁ takes s₂ := by
  obtain ⟨s₁, hplay, hidle⟩ := Run.of_seen?_done renderedRounds_played
  obtain ⟨s₂, hrun, hseen⟩ := Run.of_seen?_done renderedRounds_outcome
  rw [hplay] at hrun
  simp only [Prod.mk.injEq] at hseen
  obtain ⟨hpending, hwaits, -⟩ := hseen
  obtain ⟨events, hplays⟩ := Turn.plays_of_done hplay
  let first : Take := ⟨.play .locals "a", events, .ok .suspended⟩
  have hsignal : Unfolds Rig.rehearsal Cue.WhenIdle [first] s₁ [first] _ :=
    Unfolds.start.signal (.rendered hidle)
  obtain ⟨takes, hunfolds, hsound⟩ := hsignal.tick .look hrun
  have hsound' : ∀ t ∈ [first] ++ takes, t.fails = false :=
    List.forall_mem_cons.mpr ⟨rfl, hsound rfl⟩
  have hfound : (Session.rehearsal renderedRounds).library.action? .locals "a" =
      some { Action.titled "a" "a" with steps := renderedRounds } := rfl
  have hloop : RenderedLoop [] renderedRounds[0] 2 [renderedRounds[1], renderedRounds[2]]
      renderedRounds[3] [] :=
    ⟨by decide +kernel, by decide, by decide +kernel, by decide +kernel, by simp, by decide +kernel⟩
  obtain ⟨-, hhistories⟩ := Session.render_ends_loop .rehearsal (.rehearsal renderedRounds) rfl rfl
    hfound (by decide +kernel) hloop (by decide +kernel)
  obtain ⟨-, hcommands⟩ := hhistories events _ s₁ hplays
  obtain ⟨hcommands, -⟩ := hcommands _ s₂ hunfolds hsound' hpending hwaits
  refine ⟨_, s₂, hcommands.trans ?_, hsound', hpending, hwaits, first, s₁, hunfolds⟩
  decide +kernel

end Replay
