import Replay.Proofs.Playback.History
import Replay.Proofs.Playback.RenderQueue
import Replay.Proofs.Playback.Timetable

/-!
# Inheritance

What an activity does is done by those that it hands on to: the rest of a pass, the passes of a
counted loop, the body of a loop inside a pass, and a resumption that is scheduled. A property that
is handed on in each of these ways holds of all that a call comes to and of all that it leaves.

* `Hereditary` — a property that every activity hands on
* `Hereditary.throughout`, `Hereditary.shallow` — of the steps an activity has, and of its depth
* `Plays.held`, `Plays.gains` — what a call comes to, and what it schedules
* `Cue.Runs.gains` — what a cue schedules
* `Arises.scheduled` — what is scheduled in a session that comes up
-/

set_option autoImplicit false

namespace Replay

variable {σ : Type}

/-! ## Properties that are handed on -/

/-- A property that an activity hands on to whatever it goes on with. -/
structure Hereditary (rig : Rig σ) (ok : Activity → Prop) : Prop where
  pass : ∀ {r grouping base}, ok (.drive r) → ok (.walk ⟨r, grouping, base⟩ r.steps)
  close : ∀ {p r}, p.source.close = .proceed r → ok (.walk p []) → ok (.drive r)
  drop : ∀ {p step steps} (n : Nat), ok (.walk p (step :: steps)) → ok (.walk p (steps.drop n))
  suspend : ∀ {p step steps}, ok (.walk p (step :: steps)) → ok (.drive (p.behind steps))
  enter : ∀ {p step steps l place count}, step.instruction = .ok (.directive (.loop l)) →
    Step.closing? steps = some place → l.repetition = .ok (.times count) → 0 < count →
    ok (.walk p (step :: steps)) →
    ok (.drive (p.entering count (steps.take place) (steps.drop (place + 1))))
  rounds : ∀ {p step steps l place repetition} {again : Recurrence},
    step.instruction = .ok (.directive (.loop l)) → Step.closing? steps = some place →
    l.repetition = .ok repetition → repetition.nests = true → ok (.walk p (step :: steps)) →
    ok (.loop p step (steps.take place) (steps.drop (place + 1)) again)
  leave : ∀ {p opening body behind again}, ok (.loop p opening body behind again) →
    ok (.walk p behind)
  round : ∀ {p opening body behind again} {again' : Recurrence},
    ok (.loop p opening body behind again) → ok (.round p opening body behind again')
  loop : ∀ {p opening body behind again}, ok (.round p opening body behind again) →
    ok (.loop p opening body behind again)
  nested : ∀ {p opening body behind again}, p.source.depth + 1 ≤ rig.settings.maxNesting →
    ok (.round p opening body behind again) → ok (.drive (p.source.nested body))

namespace Hereditary

variable {rig : Rig σ} {ok : Activity → Prop}

theorem tail (h : Hereditary rig ok) {p : Leg} {step : Step} {steps : List Step}
    (hok : ok (.walk p (step :: steps))) : ok (.walk p steps) := h.drop 0 hok

/-- What holds of any stretch of some steps is handed on. -/
theorem throughout {whole : List Step → Prop}
    (within : ∀ {steps steps'}, whole steps' → steps <:+: steps' → whole steps) :
    Hereditary rig (Activity.Throughout whole) where
  pass hok := hok
  close closed hok := Resumption.throughout_of_proceed closed hok.2
  drop n hok := ⟨within hok.1 (Step.drop_within _ _ n), hok.2⟩
  suspend hok := ⟨within hok.1 (Step.drop_within _ _ 0), hok.2⟩
  enter _ _ _ _ hok := Leg.throughout_entering _ (within hok.1 (Step.take_within _ _ _))
    (within hok.1 (Step.drop_within _ _ _)) hok.2
  rounds _ _ _ _ hok :=
    ⟨within hok.1 (Step.take_within _ _ _), within hok.1 (Step.drop_within _ _ _), hok.2⟩
  leave hok := hok.2
  round hok := hok
  loop hok := hok
  nested _ hok := Resumption.throughout_nested _ hok.1

/-- Activities go no deeper than rounds may be nested. -/
theorem shallow : Hereditary rig fun a => a.depth ≤ rig.settings.maxNesting where
  pass hok := hok
  close closed hok := by
    obtain ⟨steps, frames, rfl⟩ := Resumption.eq_proceed closed
    exact hok
  drop _ hok := hok
  suspend hok := hok
  enter _ _ _ _ hok := hok
  rounds _ _ _ _ hok := hok
  leave hok := hok
  round hok := hok
  loop hok := hok
  nested shallow _ := shallow

end Hereditary

/-- The step that opens the loop that an activity is in the course of. -/
def Activity.opening? : Activity → Option Step
  | loop _ opening _ _ _ | round _ opening _ _ _ => some opening
  | drive _ | walk _ _ => none

/-- All the steps that an activity holds, those that it has before it and the one that opens its
loop, have a property. -/
structure Activity.Holds (fit : Step → Prop) (a : Activity) : Prop where
  ahead : a.Throughout fun steps => ∀ step ∈ steps, fit step
  opening : ∀ step, a.opening? = some step → fit step

/-- The steps that an activity holds are handed on. -/
theorem Hereditary.holds {rig : Rig σ} {fit : Step → Prop} :
    Hereditary rig (Activity.Holds fit) := by
  have ahead : Hereditary rig (Activity.Throughout fun steps => ∀ step ∈ steps, fit step) :=
    .throughout fun h hwithin step hstep => h step (hwithin.mem hstep)
  refine ⟨fun h => ⟨ahead.pass h.ahead, nofun⟩, fun closed h => ⟨ahead.close closed h.ahead, nofun⟩,
    fun n h => ⟨ahead.drop n h.ahead, nofun⟩, fun h => ⟨ahead.suspend h.ahead, nofun⟩,
    fun reads closing repeats positive h =>
      ⟨ahead.enter reads closing repeats positive h.ahead, nofun⟩,
    fun reads closing repeats nests h => ⟨ahead.rounds reads closing repeats nests h.ahead, ?_⟩,
    fun h => ⟨ahead.leave h.ahead, nofun⟩, fun h => ⟨ahead.round h.ahead, h.opening⟩,
    fun h => ⟨ahead.loop h.ahead, h.opening⟩,
    fun shallow h => ⟨ahead.nested shallow h.ahead, nofun⟩⟩
  rintro _ ⟨⟩
  exact h.ahead.1 _ List.mem_cons_self

/-! ## What is inherited -/

/-- **A call comes to steps that are held when it begins.** -/
theorem Plays.held {rig : Rig σ} {a : Activity} {s s' : Session σ} {events : List Event}
    {result : Result} (h : Plays rig a s events result s') {fit : Step → Prop}
    (holds : a.Holds fit) : ∀ e ∈ events, fit e.step := by
  have hereditary : Hereditary rig (Activity.Holds fit) := .holds
  have first : ∀ {p step steps}, (Activity.walk p (step :: steps)).Holds fit → fit step :=
    fun h => h.ahead.1 _ List.mem_cons_self
  induction h with
  | tooDeep _ | gone _ _ | finish _ | roundTooDeep _ => simp
  | pass shallow found _ ih => exact ih (hereditary.pass holds)
  | close closed _ ih => exact ih (hereditary.close closed holds)
  | fail _ _ | awaitRender _ | wait _ | badLoop _ _ _ | badRange _ _ _ _ =>
    exact List.forall_mem_singleton.mpr (first holds)
  | act _ _ _ ih | loopEnd _ _ ih | unmatched _ _ _ ih =>
    exact List.forall_mem_cons.mpr ⟨first holds, ih (hereditary.tail holds)⟩
  | enter reads closing repeats positive _ ih =>
    exact List.forall_mem_cons.mpr
      ⟨first holds, ih (hereditary.enter reads closing repeats positive holds)⟩
  | skip _ _ _ _ _ ih => exact List.forall_mem_cons.mpr ⟨first holds, ih (hereditary.drop _ holds)⟩
  | range reads closing repeats _ _ ih | whileTrue reads closing repeats _ ih =>
    exact List.forall_mem_cons.mpr
      ⟨first holds, ih (hereditary.rounds reads closing repeats rfl holds)⟩
  | noneLeft _ ih => exact ih (hereditary.leave holds)
  | nextRound _ ih => exact ih (hereditary.round holds)
  | enough _ _ ih =>
    exact List.forall_mem_cons.mpr ⟨holds.opening _ rfl, ih (hereditary.leave holds)⟩
  | again _ _ ih =>
    exact List.forall_mem_cons.mpr ⟨holds.opening _ rfl, ih (hereditary.round holds)⟩
  | unknown _ => exact List.forall_mem_singleton.mpr (holds.opening _ rfl)
  | roundFailed shallow _ ih => exact ih (hereditary.nested shallow holds)
  | roundDone shallow _ _ ih ih' =>
    exact List.forall_mem_append.mpr
      ⟨ih (hereditary.nested shallow holds), ih' (hereditary.loop holds)⟩

/-- A resumption stands behind a step of an activity that has a property: it is what the activity
leaves for later when it comes to a wait. -/
def Resumption.LeftBy (ok : Activity → Prop) (r : Resumption) : Prop :=
  ∃ p step steps, ok (.walk p (step :: steps)) ∧ r = p.behind steps

theorem Resumption.LeftBy.inherited {rig : Rig σ} {ok : Activity → Prop}
    (hereditary : Hereditary rig ok) {r : Resumption} (h : r.LeftBy ok) : ok (.drive r) := by
  obtain ⟨p, step, steps, hok, rfl⟩ := h
  exact hereditary.suspend hok

/-- **What a call schedules has inherited from what it began with.** -/
theorem Plays.gains {rig : Rig σ} {ok : Activity → Prop} (hereditary : Hereditary rig ok)
    {a : Activity} {s s' : Session σ} {events : List Event} {result : Result}
    (h : Plays rig a s events result s') (hok : ok a) :
    s.timetable.Gains (fun e => e.payload.LeftBy ok) s'.timetable := by
  induction h with
  | tooDeep _ | gone _ _ | finish _ | fail _ _ | awaitRender _ | badLoop _ _ _ | badRange _ _ _ _
  | unknown _ | roundTooDeep _ => exact .refl _
  | pass shallow found _ ih => simpa using ih (hereditary.pass hok)
  | close closed _ ih => exact ih (hereditary.close closed hok)
  | act _ _ _ ih | loopEnd _ _ ih | unmatched _ _ _ ih => exact ih (hereditary.tail hok)
  | wait reads => exact Session.suspend_gains _ _ _ _ ⟨_, _, _, hok, rfl⟩
  | enter reads closing repeats positive _ ih =>
    exact ih (hereditary.enter reads closing repeats positive hok)
  | skip _ _ _ _ _ ih => exact ih (hereditary.drop _ hok)
  | range reads closing repeats _ _ ih | whileTrue reads closing repeats _ ih =>
    exact ih (hereditary.rounds reads closing repeats rfl hok)
  | noneLeft _ ih | enough _ _ ih => exact ih (hereditary.leave hok)
  | nextRound _ ih | again _ _ ih => exact ih (hereditary.round hok)
  | roundFailed shallow _ ih => exact ih (hereditary.nested shallow hok)
  | roundDone shallow _ _ ih ih' =>
    exact (ih (hereditary.nested shallow hok)).trans (ih' (hereditary.loop hok))

/-! ## Sessions that come up -/

/-- A resumption is the beginning of some steps of an action. -/
def Resumption.Starts (r : Resumption) : Prop := ∃ collection id steps, r = .start collection id steps

/-- What a signal that a render is complete schedules is some steps of an action, afresh. -/
theorem Session.releaseEach_gains (rig : Rig σ) (waits : List RenderWait) (n : Nat)
    (s : Session σ) :
    s.timetable.Gains (fun e => e.payload.Starts) (releaseEach rig waits n s).2.timetable := by
  refine releaseEach_keeps (p := fun s' => s.timetable.Gains _ s'.timetable) ?_ waits n s (.refl _)
  intro s' collection id steps gains
  exact gains.trans (suspend_gains rig s' _ _ ⟨collection, id, steps, rfl⟩)

/-- The entries that a cue takes out of a timetable. -/
def Cue.taken : Cue → Timetable Resumption → List (TimetableEntry Resumption)
  | look now, t => (t.takeDue now).1
  | play _ _, _ | rendered, _ => []

/-- A timetable without the entries that a cue takes out of it. -/
def Cue.leaving : Cue → Timetable Resumption → Timetable Resumption
  | look now, t => (t.takeDue now).2
  | play _ _, t | rendered, t => t

section Arises

variable {rig : Rig σ} {ok : Activity → Prop} {s s' : Session σ} {takes : List Take} {cue : Cue}

theorem Resumes.gains (hereditary : Hereditary rig ok) {rs : List Resumption}
    (h : Resumes rig rs s takes s') (hok : ∀ r ∈ rs, ok (.drive r)) :
    s.timetable.Gains (fun e => e.payload.LeftBy ok) s'.timetable := by
  induction h with
  | nothing => exact .refl _
  | dropped _ _ ih => exact ih (List.forall_mem_cons.mp hok).2
  | taken _ plays _ ih =>
    obtain ⟨hr, hrest⟩ := List.forall_mem_cons.mp hok
    exact (plays.gains hereditary hr).trans (ih hrest)

theorem Cue.mem_leaving {t : Timetable Resumption} {e : TimetableEntry Resumption}
    (h : e ∈ (cue.leaving t).waiting) : e ∈ t.waiting := by
  cases cue with
  | look now => exact (List.mem_filter.mp h).1
  | play _ _ | rendered => exact h

theorem Timetable.mem_takeDue {t : Timetable Resumption} {now : Time} {r : Resumption}
    (h : r ∈ (t.takeDue now).1.map TimetableEntry.payload) : ∃ e ∈ t.waiting, e.payload = r := by
  obtain ⟨e, he, rfl⟩ := List.mem_map.mp h
  exact ⟨e, (mem_takeDue_iff.mp he).1, rfl⟩

/-- **What a cue schedules has inherited from an action's beginning or from what was scheduled
before.** It is the beginning of some steps of an action, or what an activity leaves for later. -/
theorem Cue.Runs.gains (hereditary : Hereditary rig ok)
    (starts : ∀ collection id steps, ok (.drive (.start collection id steps)))
    (h : cue.Runs rig s takes s') (hold : ∀ e ∈ s.timetable.waiting, ok (.drive e.payload)) :
    (cue.leaving s.timetable).Gains (fun e => e.payload.LeftBy ok ∨ e.payload.Starts)
      s'.timetable := by
  cases h with
  | play plays =>
    cases plays with
    | refused _ => exact .refl _
    | @driven r _ _ _ start drives =>
      have hr : ok (.drive r) := by
        simp only [Turn.begins] at start
        split at start <;> cases start
        exact starts _ _ _
      exact (drives.gains hereditary hr).imp fun _ => .inl
  | look resumes =>
    refine (resumes.gains hereditary fun r hr => ?_).imp fun _ => .inl
    obtain ⟨e, he, rfl⟩ := Timetable.mem_takeDue hr
    exact hold e he
  | rendered =>
    exact (Session.releaseEach_gains rig s.waits 0 { s with waits := [] }).imp fun _ => .inr

/-- What has been inherited by what is scheduled is inherited by what a cue schedules. -/
theorem Cue.Runs.scheduled (hereditary : Hereditary rig ok)
    (starts : ∀ collection id steps, ok (.drive (.start collection id steps)))
    (h : cue.Runs rig s takes s') (hold : ∀ e ∈ s.timetable.waiting, ok (.drive e.payload)) :
    ∀ e ∈ s'.timetable.waiting, ok (.drive e.payload) := by
  refine ((h.gains hereditary starts hold).imp ?_).forall_mem fun e he => hold e (mem_leaving he)
  rintro e (left | ⟨collection, id, steps, hpayload⟩)
  · exact left.inherited hereditary
  · rw [hpayload]
    exact starts collection id steps

/-- **What is scheduled in a session that comes up has inherited from an action's beginning.** -/
theorem Arises.scheduled (hereditary : Hereditary rig ok)
    (starts : ∀ collection id steps, ok (.drive (.start collection id steps)))
    (h : Arises rig s) : ∀ e ∈ s.timetable.waiting, ok (.drive e.payload) := by
  induction h with
  | begin => simp [Session.begin, Timetable.empty]
  | cue _ runs ih => exact runs.scheduled hereditary starts ih
  | edit _ _ _ ih => exact ih

end Arises

end Replay
