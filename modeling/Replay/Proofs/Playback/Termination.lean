import Replay.Proofs.Playback.Inheritance
import Replay.Proofs.Playback.LoopBodies

/-!
# Playback that ends

Only a conditional loop can keep a playback going for ever. The steps that an activity holds may grow
in number, since a counted loop keeps its body and what is behind it, but each of them is counted as
often as the loops around it repeat it. By this count there is less and less to perform, and what is
done between two performances comes to an end, too.

* `Unconditional` — no loop among some steps is a conditional one
* `Block.toil` — how much there is to perform of a block
* `Activity.Nearer` — activities that are nearer to their end than others
* `Activity.ends` — an activity without conditional loops ends, whatever the session
* `Session.unconditional_left` — what is left scheduled has no conditional loop either
* `Session.ends_without_conditions` — playing an action and looking at the timetable end
-/

set_option autoImplicit false

namespace Replay

variable {σ : Type}

/-! ## Steps without conditional loops -/

/-- Whether a loop repeats its body as long as a condition holds. -/
def Loop.isConditional (l : Loop) : Bool :=
  match l.repetition with
  | .ok (.whileTrue _) => true
  | _ => false

/-- No loop among some steps is a conditional one. A beginning without an end is no loop. -/
def Unconditional (steps : List Step) : Prop := EachLoop (fun l _ => l.isConditional = false) steps

instance (steps : List Step) : Decidable (Unconditional steps) :=
  inferInstanceAs (Decidable (EachLoop _ steps))

instance (r : Resumption) : Decidable (r.Throughout Unconditional) :=
  inferInstanceAs (Decidable (_ ∧ ∀ f ∈ r.frames, _))

/-- Whether a step begins a conditional loop, with an end or without one. -/
def Step.beginsConditional (s : Step) : Bool :=
  match s.instruction with
  | .ok (.directive (.loop l)) => l.isConditional
  | _ => false

/-- It is enough that no step begins a conditional loop. -/
theorem Unconditional.of_steps {steps : List Step}
    (h : ∀ step ∈ steps, step.beginsConditional = false) : Unconditional steps := by
  rintro before opening rest l place rfl reads -
  have hplain := h opening (by simp)
  rwa [Step.beginsConditional, reads] at hplain

theorem Unconditional.within {steps whole : List Step} (h : Unconditional whole)
    (hwithin : steps <:+: whole) : Unconditional steps := EachLoop.within h hwithin

/-- A loop among such steps cannot be read as a conditional one. -/
theorem Unconditional.first {step : Step} {rest : List Step} {l : Loop} {place : Nat}
    (h : Unconditional (step :: rest)) (reads : step.instruction = .ok (.directive (.loop l)))
    (closing : Step.closing? rest = some place) (condition : String) :
    l.repetition ≠ .ok (.whileTrue condition) := by
  intro hrepetition
  have hplain := EachLoop.first h reads closing
  simp [Loop.isConditional, hrepetition] at hplain

/-! ## How much there is to perform -/

/-- How often a loop plays its body; a conditional loop is left out of account. -/
def Loop.rounds : Except DirectiveError Repetition → Nat
  | .ok (.times count) => count.toNat
  | .ok (.range start stop step) => (rangeCount? start stop step).getD 0
  | .ok (.whileTrue _) | .error _ => 0

namespace Block

mutual

/-- How much there is to perform of a block: what is in a loop counts once for each round. -/
def toil : Block → Nat
  | step _ => 1
  | loop _ repetition body => Loop.rounds repetition * (toils body + 1) + 1
  | round _ body => toils body + 1

/-- How much there is to perform of some blocks. -/
def toils : List Block → Nat
  | [] => 0
  | block :: rest => block.toil + toils rest

end

theorem toils_append (first later : List Block) :
    toils (first ++ later) = toils first + toils later := by
  induction first with
  | nil => simp [toils]
  | cons block rest ih => simp only [List.cons_append, toils, ih, Nat.add_assoc]

theorem toils_replicate (block : Block) (n : Nat) :
    toils (List.replicate n block) = n * block.toil := by
  induction n with
  | zero => simp [toils]
  | succ n ih => rw [List.replicate_succ, toils, ih, Nat.succ_mul, Nat.add_comm]

theorem toils_rounds (blocks : List Block) (n : Nat) :
    toils (List.replicate n blocks).flatten = n * toils blocks := by
  induction n with
  | zero => simp [toils]
  | succ n ih =>
    rw [List.replicate_succ, List.flatten_cons, toils_append, ih, Nat.succ_mul, Nat.add_comm]

end Block

/-! ## Nearer to the end -/

namespace Activity

open Block

/-- An activity is nearer to its end than another one: there is less to perform, or as much, and less
to do before it. -/
def Nearer (a b : Activity) : Prop :=
  Prod.Lex (· < ·) (· < ·) (toils a.blocks, a.work) (toils b.blocks, b.work)

theorem nearer_wf : WellFounded Nearer :=
  InvImage.wf _ (Prod.lex ⟨_, Nat.lt_wfRel.wf⟩ ⟨_, Nat.lt_wfRel.wf⟩).wf

namespace Nearer

variable {a b : Activity} {p : Leg} {opening : Step} {body behind : List Step}

/-- There is less to perform. -/
theorem fewer (h : toils a.blocks < toils b.blocks) : a.Nearer b := .left _ _ h

/-- There is the same to perform, and less to do before it. -/
theorem idle (blocks : a.blocks = b.blocks) (work : a.work < b.work) : a.Nearer b := by
  unfold Nearer
  rw [blocks]
  exact .right _ work

/-- A pass has begun. -/
theorem pass (r : Resumption) (grouping : Grouping) (base : Surface) :
    (walk ⟨r, grouping, base⟩ r.steps).Nearer (drive r) := by
  refine idle rfl ?_
  simp only [work]
  omega

/-- A pass has come to its end, and the next one follows. -/
theorem close {next : Resumption} (closed : p.source.close = .proceed next) :
    (drive next).Nearer (walk p []) := by
  refine idle (Resumption.blocks_of_proceed closed) ?_
  have hless := Resumption.work_of_proceed closed
  simp only [work, List.length_nil] at hless ⊢
  omega

/-- A step that is no block of its own has been passed over. -/
theorem tail {step : Step} {rest : List Step} (blocks : ofSteps (step :: rest) = ofSteps rest) :
    (walk p rest).Nearer (walk p (step :: rest)) := by
  refine idle (by simp only [Activity.blocks, blocks]) ?_
  simp only [work, List.length_cons]
  omega

/-- A step has been performed. -/
theorem act {h : Host σ} {step : Step} {rest : List Step} {f : σ → Except PlayError Unit × σ}
    (effect : step.effect? h p.grouping p.base = some f) :
    (walk p rest).Nearer (walk p (step :: rest)) := by
  refine fewer ?_
  simp only [Activity.blocks, ofSteps_effect effect, List.cons_append, toils, toil]
  omega

/-- A round of a loop is about to begin. -/
theorem nextRound {left : Nat} : (round p opening body behind (.times left)).Nearer
    (loop p opening body behind (.times (left + 1))) := by
  refine idle rfl ?_
  simp only [work]
  omega

/-- No round of a loop is left. -/
theorem leave : (walk p behind).Nearer (loop p opening body behind (.times 0)) := by
  refine idle rfl ?_
  simp only [work]
  omega

/-- The body of a loop is played inside a round. -/
theorem nested {again : Recurrence} :
    (drive (p.source.nested body)).Nearer (round p opening body behind again) := by
  refine fewer ?_
  rw [Resumption.blocks_nested]
  simp only [Activity.blocks, toils, toil]
  omega

/-- A round of a loop is over. -/
theorem again {again : Recurrence} :
    (loop p opening body behind again).Nearer (round p opening body behind again) := by
  refine fewer ?_
  simp only [Activity.blocks, toils, toil]
  omega

section Loop

variable {step : Step} {steps : List Step} {l : Loop} {place : Nat}

/-- What is to be performed of a loop and of what is behind it. -/
theorem toils_loop (reads : step.instruction = .ok (.directive (.loop l)))
    (closing : Step.closing? steps = some place) :
    toils (walk p (step :: steps)).blocks =
      Loop.rounds l.repetition * (toils (ofSteps (steps.take place)) + 1) + 1 +
        toils (ofSteps (steps.drop (place + 1)) ++ p.source.around) := by
  simp only [Activity.blocks, ofSteps_loop reads closing, List.cons_append, toils, toil]

/-- A loop has been passed over. -/
theorem skip (reads : step.instruction = .ok (.directive (.loop l)))
    (closing : Step.closing? steps = some place) :
    (walk p (steps.drop (place + 1))).Nearer (walk p (step :: steps)) := by
  refine fewer ?_
  rw [toils_loop reads closing]
  simp only [Activity.blocks]
  omega

/-- A counted loop has been entered. Its body and what is behind it are held by a frame now. -/
theorem enter {count : Int} (reads : step.instruction = .ok (.directive (.loop l)))
    (closing : Step.closing? steps = some place) (repeats : l.repetition = .ok (.times count))
    (positive : 0 < count) :
    (drive (p.entering count (steps.take place) (steps.drop (place + 1)))).Nearer
      (walk p (step :: steps)) := by
  refine fewer ?_
  rw [toils_loop reads closing, repeats, Leg.blocks_entering p positive, toils_append, toils_rounds,
    Loop.rounds, Nat.mul_succ]
  omega

/-- The rounds of a range loop are about to begin. -/
theorem range {start stop by' : Binary64} {count : Nat}
    (reads : step.instruction = .ok (.directive (.loop l)))
    (closing : Step.closing? steps = some place)
    (repeats : l.repetition = .ok (.range start stop by'))
    (counts : rangeCount? start stop by' = some count) :
    (loop p step (steps.take place) (steps.drop (place + 1)) (.times count)).Nearer
      (walk p (step :: steps)) := by
  refine fewer ?_
  rw [toils_loop reads closing, repeats, Loop.rounds, counts]
  simp only [Activity.blocks, Recurrence.blocks, toils_append, toils_replicate, toil,
    Option.getD_some]
  omega

end Loop

end Nearer

/-! ## Ends -/

/-- How the loop goes on that an activity is in the course of. -/
def again? : Activity → Option Recurrence
  | loop _ _ _ _ again | round _ _ _ _ again => some again
  | drive _ | walk _ _ => none

/-- An activity comes to an end, whatever the session. -/
def Ends (rig : Rig σ) (a : Activity) : Prop :=
  ∀ s, ∃ events result s', Plays rig a s events result s'

namespace Ends

variable {rig : Rig σ} {p : Leg}

theorem drive {r : Resumption}
    (h : ∀ grouping base, (walk ⟨r, grouping, base⟩ r.steps).Ends rig) : (drive r).Ends rig := by
  intro s
  by_cases deep : rig.settings.maxNesting < r.depth
  · exact ⟨_, _, _, .tooDeep deep⟩
  · have shallow : r.depth ≤ rig.settings.maxNesting := Nat.le_of_not_lt deep
    cases found : s.library.action? r.collection r.actionId with
    | none => exact ⟨_, _, _, .gone shallow found⟩
    | some action =>
      obtain ⟨events, result, s', plays⟩ := h action.grouping _ (s.announce r)
      exact ⟨_, _, _, .pass shallow found plays⟩

theorem close (h : ∀ next, p.source.close = .proceed next → (Activity.drive next).Ends rig) :
    (walk p []).Ends rig := by
  intro s
  cases closed : p.source.close with
  | finished => exact ⟨_, _, _, .finish closed⟩
  | suspended =>
    unfold Resumption.close at closed
    split at closed
    · cases closed
    · split at closed <;> cases closed
  | proceed next =>
    obtain ⟨events, result, s', plays⟩ := h next closed s
    exact ⟨_, _, _, .close closed plays⟩

theorem act {step : Step} {rest : List Step} {f : σ → Except PlayError Unit × σ}
    (effect : step.effect? rig.host p.grouping p.base = some f) (h : (walk p rest).Ends rig) :
    (walk p (step :: rest)).Ends rig := by
  intro s
  cases hf : f s.host with
  | mk answer host =>
    cases answer with
    | error e => exact ⟨_, _, _, .fail effect hf⟩
    | ok done =>
      obtain ⟨events, result, s', plays⟩ := h { s with host := host }
      exact ⟨_, _, _, .act effect hf plays⟩

theorem round {opening : Step} {body behind : List Step} {again : Recurrence}
    (inside : (Activity.drive (p.source.nested body)).Ends rig)
    (rest : (loop p opening body behind again).Ends rig) :
    (round p opening body behind again).Ends rig := by
  intro s
  by_cases deep : rig.settings.maxNesting < p.source.depth + 1
  · exact ⟨_, _, _, .roundTooDeep deep⟩
  · have shallow : p.source.depth + 1 ≤ rig.settings.maxNesting := Nat.le_of_not_lt deep
    obtain ⟨events, result, s₁, plays⟩ := inside s
    cases result with
    | error e => exact ⟨_, _, _, .roundFailed shallow plays⟩
    | ok outcome =>
      obtain ⟨events', result, s₂, plays'⟩ := rest s₁
      exact ⟨_, _, _, .roundDone shallow plays plays'⟩

end Ends

/-- An activity has no conditional loop before it, and is not in the course of one. -/
structure Bounded (a : Activity) : Prop where
  ahead : a.Throughout Unconditional
  counts : ∀ condition, a.again? ≠ some (.whileTrue condition)

/-- Whatever has no conditional loop and is nearer to the end than an activity, ends. -/
def EndsBefore (rig : Rig σ) (a : Activity) : Prop :=
  ∀ b : Activity, b.Nearer a → b.Bounded → b.Ends rig

namespace EndsBefore

variable {rig : Rig σ} {p : Leg} {step opening : Step} {steps body behind : List Step}

/-- A loop that is no conditional one is entered, played, passed over, or fails. -/
theorem at_loop {l : Loop} {place : Nat} (before : (walk p (step :: steps)).EndsBefore rig)
    (plain : (walk p (step :: steps)).Throughout Unconditional)
    (reads : step.instruction = .ok (.directive (.loop l)))
    (closing : Step.closing? steps = some place) : (walk p (step :: steps)).Ends rig := by
  have hereditary : Hereditary rig (Throughout Unconditional) := .throughout .within
  intro s
  cases repeats : l.repetition with
  | error cause => exact ⟨_, _, _, .badLoop reads closing repeats⟩
  | ok repetition =>
    cases repetition with
    | whileTrue condition => exact absurd repeats (plain.1.first reads closing condition)
    | range start stop by' =>
      cases counts : rangeCount? start stop by' with
      | none => exact ⟨_, _, _, .badRange reads closing repeats counts⟩
      | some count =>
        have hplain : (loop p step (steps.take place) (steps.drop (place + 1))
            (.times count)).Throughout Unconditional :=
          hereditary.rounds reads closing repeats rfl plain
        obtain ⟨events, result, s', plays⟩ :=
          before _ (.range reads closing repeats counts) ⟨hplain, nofun⟩ s
        exact ⟨_, _, _, .range reads closing repeats counts plays⟩
    | times count =>
      by_cases positive : 0 < count
      · have hplain := hereditary.enter reads closing repeats positive plain
        obtain ⟨events, result, s', plays⟩ :=
          before _ (.enter reads closing repeats positive) ⟨hplain, nofun⟩ s
        exact ⟨_, _, _, .enter reads closing repeats positive plays⟩
      · have hplain := hereditary.drop (place + 1) plain
        obtain ⟨events, result, s', plays⟩ := before _ (.skip reads closing) ⟨hplain, nofun⟩ s
        exact ⟨_, _, _, .skip reads closing repeats positive plays⟩

/-- A pass that comes to a step ends. -/
theorem at_step (before : (walk p (step :: steps)).EndsBefore rig)
    (plain : (walk p (step :: steps)).Throughout Unconditional) :
    (walk p (step :: steps)).Ends rig := by
  have hereditary : Hereditary rig (Throughout Unconditional) := .throughout .within
  have htail : (walk p steps).Bounded := ⟨hereditary.tail plain, nofun⟩
  obtain ⟨f, hf⟩ | reads | ⟨t, reads⟩ | reads | ⟨l, reads⟩ :=
    step.effect?_cases rig.host p.grouping p.base
  · exact .act hf (before _ (.act hf) htail)
  · exact fun s => ⟨_, _, _, .awaitRender reads⟩
  · exact fun s => ⟨_, _, _, .wait reads⟩
  · intro s
    have hblocks := ofSteps_loopEnd reads steps
    obtain ⟨events, result, s', plays⟩ := before _ (.tail hblocks) htail s
    exact ⟨_, _, _, .loopEnd reads plays⟩
  · cases closing : Step.closing? steps with
    | some place => exact before.at_loop plain reads closing
    | none =>
      intro s
      have hblocks := ofSteps_unmatched reads closing
      obtain ⟨events, result, s', plays⟩ := before _ (.tail hblocks) htail s
      exact ⟨_, _, _, .unmatched reads closing plays⟩

/-- A loop that has so many rounds left ends. -/
theorem at_rounds {left : Nat} (before : (loop p opening body behind (.times left)).EndsBefore rig)
    (plain : (loop p opening body behind (.times left)).Throughout Unconditional) :
    (loop p opening body behind (.times left)).Ends rig := by
  have hereditary : Hereditary rig (Throughout Unconditional) := .throughout .within
  intro s
  cases left with
  | zero =>
    obtain ⟨events, result, s', plays⟩ := before _ .leave ⟨hereditary.leave plain, nofun⟩ s
    exact ⟨_, _, _, .noneLeft plays⟩
  | succ left =>
    have hplain : (Activity.round p opening body behind (.times left)).Throughout Unconditional :=
      hereditary.round plain
    obtain ⟨events, result, s', plays⟩ := before _ .nextRound ⟨hplain, nofun⟩ s
    exact ⟨_, _, _, .nextRound plays⟩

end EndsBefore

/-- **What has no conditional loop ends**, by induction on how near it is to its end. -/
theorem ends {rig : Rig σ} {a : Activity} (bounded : a.Bounded) : a.Ends rig := by
  induction a using nearer_wf.induction with
  | _ a ih =>
    have before : a.EndsBefore rig := ih
    have hereditary : Hereditary rig (Throughout Unconditional) := .throughout .within
    obtain ⟨plain, counts⟩ := bounded
    match a with
    | .drive r =>
      exact .drive fun grouping base => before _ (.pass r grouping base) ⟨plain, nofun⟩
    | .walk p [] =>
      exact .close fun next closed =>
        before _ (.close closed) ⟨hereditary.close closed plain, nofun⟩
    | .walk p (first :: steps) => exact before.at_step plain
    | .loop p opening body behind (.whileTrue condition) => exact absurd rfl (counts condition)
    | .loop p opening body behind (.times left) => exact before.at_rounds plain
    | .round p opening body behind again =>
      have hinside : (drive (p.source.nested body)).Bounded :=
        ⟨Resumption.throughout_nested _ plain.1, nofun⟩
      exact .round (before _ .nested hinside) (before _ .again ⟨plain, counts⟩)

end Activity

/-! ## Calls -/

namespace Session

variable {rig : Rig σ} {s : Session σ}

/-- Resumptions that end are taken up one after the other. -/
theorem exists_resumes {rs : List Resumption} (h : ∀ r ∈ rs, (Activity.drive r).Ends rig) :
    ∀ s, ∃ takes s', Resumes rig rs s takes s' := by
  induction rs with
  | nil => exact fun s => ⟨[], s, .nothing⟩
  | cons r rest ih =>
    intro s
    obtain ⟨hr, hrest⟩ := List.forall_mem_cons.mp h
    cases found : s.library.action? r.collection r.actionId with
    | none =>
      obtain ⟨takes, s', resumes⟩ := ih hrest s
      exact ⟨takes, s', .dropped found resumes⟩
    | some action =>
      obtain ⟨events, result, s₁, plays⟩ := hr s
      obtain ⟨takes, s', resumes⟩ := ih hrest s₁
      exact ⟨_, s', .taken found plays resumes⟩

/-- An action ends whose active steps do. -/
theorem play_ends_of {collection : Collection} {id : String}
    (h : ∀ action, s.library.action? collection id = some action →
      (Activity.drive (.start collection id action.steps)).Ends rig) :
    ∃ budget result s', ∀ n, budget ≤ n → s.play rig n collection id = .ofResult result s' := by
  cases found : s.library.action? collection id with
  | none =>
    refine ⟨0, .error (.missingAction id), s, fun n _ => ?_⟩
    rw [play, found]
    rfl
  | some action =>
    obtain ⟨events, result, s', plays⟩ := h action found s
    obtain ⟨budget, hrun⟩ := plays.exists_run
    refine ⟨budget, result, s', fun n hn => ?_⟩
    rw [play_of_found found]
    exact Activity.run_stable (a := .drive _) hn hrun

/-- A look ends at which all that is due does. -/
theorem tick_ends_of {now : Time} (h : ∀ e ∈ s.timetable.waiting, e.deadline ≤ now →
    (Activity.drive e.payload).Ends rig) :
    ∃ budget report s', ∀ n, budget ≤ n → s.tick rig n now = .done report s' := by
  have hdue : ∀ r ∈ (s.timetable.takeDue now).1.map TimetableEntry.payload,
      (Activity.drive r).Ends rig := by
    intro r hr
    obtain ⟨e, he, rfl⟩ := List.mem_map.mp hr
    obtain ⟨hwaiting, hdeadline⟩ := Timetable.mem_takeDue_iff.mp he
    exact h e hwaiting hdeadline
  obtain ⟨takes, s', resumes⟩ :=
    exists_resumes hdue { s with timetable := (s.timetable.takeDue now).2 }
  have hends : ∃ report budget, s.tick rig budget now = .done report s' :=
    ⟨_, tick_iff_resumes.mpr ⟨takes, resumes, rfl⟩⟩
  obtain ⟨report, budget, hrun⟩ := hends
  refine ⟨budget, report, s', fun n hn => ?_⟩
  have hagrees : (s.tick rig budget now).Agrees (s.tick rig n now) := resumeEach_agrees rig hn _ _ _
  rw [hagrees (by simp [hrun]), hrun]

/-- What a turn without conditional loops leaves scheduled has none either, so that looks at it end,
too. -/
theorem unconditional_left {turn : Turn} {events : List Event} {result : Result} {s' : Session σ}
    (plays : turn.Plays rig s events result s')
    (begins : ∀ r, turn.begins s = .ok r → r.Throughout Unconditional)
    (held : ∀ e ∈ s.timetable.waiting, e.payload.Throughout Unconditional) :
    ∀ e ∈ s'.timetable.waiting, e.payload.Throughout Unconditional := by
  have hereditary : Hereditary rig (Activity.Throughout Unconditional) := .throughout .within
  cases plays with
  | refused failure => exact held
  | driven start drives =>
    have hgains := drives.gains hereditary (begins _ start)
    exact (hgains.imp fun e left => left.inherited hereditary).forall_mem held

/-- **Without conditional loops, calls of the player end.** Whatever the host, the library, the
settings and the clock: an action is played to some end if no loop among its active steps is a
conditional one, and a look at the timetable comes to an end if none of the steps is in such a loop
that are held by what is due, those of the frames included. Every larger budget leads to the same
end. -/
theorem ends_without_conditions (rig : Rig σ) (s : Session σ) :
    (∀ collection id, (∀ action, s.library.action? collection id = some action →
        Unconditional (action.steps.filter Step.active)) →
      ∃ budget result s', ∀ n, budget ≤ n →
        s.play rig n collection id = .ofResult result s') ∧
    ∀ now, (∀ e ∈ s.timetable.waiting, e.deadline ≤ now → e.payload.Throughout Unconditional) →
      ∃ budget report s', ∀ n, budget ≤ n → s.tick rig n now = .done report s' := by
  constructor
  · intro collection id plain
    refine play_ends_of fun action found => Activity.ends ⟨?_, nofun⟩
    exact ⟨plain action found, nofun⟩
  · intro now plain
    exact tick_ends_of fun e he due => Activity.ends ⟨plain e he due, nofun⟩

end Session

/-- A counted loop around a range loop, with a wait in its body and another one behind it; then an
end without a beginning. -/
def tangledLoops : List Step := [
  .recorded "l" "ar.event:\x7b\"Type\":\"Loop\",\"StatementType\":\"repeat\",\"RepeatCount\":2\x7d",
  .recorded "r" ("ar.event:\x7b\"Type\":\"Loop\",\"StatementType\":\"count\"," ++
    "\"Startnumber\":0,\"Endnumber\":2,\"Stepnumber\":1\x7d"),
  .recorded "t" "ar.event:\x7b\"Type\":\"Timer\",\"Time\":0\x7d",
  .recorded "e" "ar.event:\x7b\"Type\":\"EndLoop\"\x7d",
  .recorded "w" "ar.event:\x7b\"Type\":\"Timer\",\"Time\":0.5\x7d",
  .recorded "f" "ar.event:\x7b\"Type\":\"EndLoop\"\x7d",
  .recorded "g" "ar.event:\x7b\"Type\":\"EndLoop\"\x7d"]

/-- Three resumptions are scheduled, the last of which holds a frame. -/
theorem tangledLoops_suspended :
    (Turn.rehearse 10 tangledLoops).seen? (fun s => s.timetable.waiting.map fun e =>
      e.payload.frames.length) = some (some .suspended, [0, 0, 1]) := by
  decide +kernel

theorem tangledLoops_end :
    Unconditional (tangledLoops.filter Step.active) ∧
    (∃ budget result s', ∀ n, budget ≤ n →
      (Session.rehearsal tangledLoops).play .rehearsal n .locals "a" = .ofResult result s') ∧
    ∃ s, Turn.rehearse 10 tangledLoops = .done .suspended s ∧ s.timetable.waiting.length = 3 ∧
      (∀ e ∈ s.timetable.waiting, e.payload.Throughout Unconditional) ∧
      ∃ budget report s', ∀ n, budget ≤ n →
        s.tick .rehearsal n (Time.ofMillis 500) = .done report s' := by
  have hplain : Unconditional (tangledLoops.filter Step.active) := .of_steps (by decide +kernel)
  obtain ⟨s, hplay, hseen⟩ := Run.of_seen?_done tangledLoops_suspended
  have hlength : s.timetable.waiting.length = 3 := by
    simpa using congrArg List.length hseen
  obtain ⟨events, plays⟩ := Turn.plays_of_done hplay
  have hheld : ∀ e ∈ s.timetable.waiting, e.payload.Throughout Unconditional := by
    refine Session.unconditional_left plays ?_ nofun
    rintro r ⟨⟩
    exact ⟨hplain, nofun⟩
  refine ⟨hplain, ?_, s, hplay, hlength, hheld, ?_⟩
  · refine (Session.ends_without_conditions .rehearsal (.rehearsal tangledLoops)).1 .locals "a" ?_
    rintro action ⟨⟩
    exact hplain
  · exact (Session.ends_without_conditions .rehearsal s).2 (Time.ofMillis 500)
      fun e he _ => hheld e he

end Replay
