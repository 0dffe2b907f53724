import Replay.Proofs.Library.Basic
import Replay.Proofs.Playback.Suspension

/-!
# The queue for renders

Who waits for a render is settled at the beginning: a turn that starts some steps afresh looks them
through for the first wait for a render and queues the step behind it. It does so whether or not
that wait is ever reached, and a wait that is reached later does not queue anything. So a signal may
release what has never come to its wait.

* `Plays.waits_eq` — nothing but the beginning of a fresh resumption changes the queue
* `Turn.queue_settled_at_start` — what a turn adds to the queue, however it ends
* `unreachedRender_queued` — an entry for a wait that is passed over
-/

set_option autoImplicit false

namespace Replay

variable {σ : Type}

/-! ## The first wait for a render -/

/-- A step stands right behind the first wait for a render among some steps. -/
def FollowsRender (steps : List Step) (next : Step) : Prop :=
  ∃ before wait after, steps = before ++ wait :: next :: after ∧
    (∀ step ∈ before, step.awaitsRender = false) ∧ wait.awaitsRender = true

theorem Step.afterRender?_eq_some {steps : List Step} {next : Step} :
    afterRender? steps = some next ↔ FollowsRender steps next := by
  induction steps with
  | nil => simp [afterRender?, FollowsRender]
  | cons step rest ih =>
    unfold afterRender?
    by_cases hstep : step.awaitsRender = true
    · rw [if_pos hstep, List.head?_eq_some_iff]
      constructor
      · rintro ⟨after, rfl⟩
        exact ⟨[], step, after, rfl, by simp, hstep⟩
      · rintro ⟨before, wait, after, hsteps, hbefore, hwait⟩
        cases before with
        | nil => exact ⟨after, (List.cons.inj hsteps).2⟩
        | cons first before =>
          obtain ⟨rfl, -⟩ := List.cons.inj hsteps
          simp [hstep] at hbefore
    · rw [if_neg hstep, ih]
      constructor
      · rintro ⟨before, wait, after, rfl, hbefore, hwait⟩
        refine ⟨step :: before, wait, after, rfl, ?_, hwait⟩
        intro x hx
        rcases List.mem_cons.mp hx with rfl | hx
        · simpa using hstep
        · exact hbefore x hx
      · rintro ⟨before, wait, after, hsteps, hbefore, hwait⟩
        cases before with
        | nil =>
          obtain ⟨rfl, -⟩ := List.cons.inj hsteps
          exact absurd hwait hstep
        | cons first before =>
          obtain ⟨-, rfl⟩ := List.cons.inj hsteps
          exact ⟨before, wait, after, rfl, fun x hx => hbefore x (List.mem_cons_of_mem _ hx), hwait⟩

/-! ## What changes the queue -/

theorem Session.announce_of_not_fresh {s : Session σ} {r : Resumption} (h : r.fresh = false) :
    s.announce r = s := by
  unfold announce
  rw [h]
  rfl

/-- Whether an activity begins with a fresh resumption. -/
def Activity.fresh : Activity → Bool
  | drive r => r.fresh
  | _ => false

/-- **Only the beginning of a fresh resumption changes the queue.** -/
theorem Plays.waits_eq {rig : Rig σ} {a : Activity} {s s' : Session σ} {events : List Event}
    {result : Result} (h : Plays rig a s events result s') (stale : a.fresh = false) :
    s'.waits = s.waits := by
  induction h with
  | tooDeep deep => rfl
  | gone shallow missing => rfl
  | pass shallow found _ ih =>
    rw [ih rfl, Session.announce_of_not_fresh stale]
  | finish closed => rfl
  | close closed _ ih =>
    obtain ⟨steps, frames, rfl⟩ := Resumption.eq_proceed closed
    exact ih rfl
  | act effect done _ ih => exact ih rfl
  | fail effect failed => rfl
  | awaitRender reads => rfl
  | wait reads => rfl
  | loopEnd reads _ ih => exact ih rfl
  | unmatched reads closing _ ih => exact ih rfl
  | badLoop reads closing repeats => rfl
  | enter reads closing repeats positive _ ih => exact ih rfl
  | skip reads closing repeats nought _ ih => exact ih rfl
  | badRange reads closing repeats counts => rfl
  | range reads closing repeats counts _ ih => exact ih rfl
  | whileTrue reads closing repeats _ ih => exact ih rfl
  | noneLeft _ ih => exact ih rfl
  | nextRound _ ih => exact ih rfl
  | enough holds _ ih => exact ih rfl
  | again holds _ ih => exact ih rfl
  | unknown holds => rfl
  | roundTooDeep deep => rfl
  | roundFailed shallow _ ih => exact ih rfl
  | roundDone shallow _ _ ih ih' => exact (ih' rfl).trans (ih rfl)

/-! ## What a turn adds -/

/-- The entry that a turn makes in the queue: it starts some steps of an action afresh, and a step
stands behind the first wait for a render among them. -/
inductive Announces (rig : Rig σ) (s : Session σ) : Turn → RenderWait → Prop
  | play {collection id action next}
      (found : s.library.action? collection id = some action)
      (follows : FollowsRender (action.steps.filter Step.active) next) :
      Announces rig s (.play collection id) ⟨collection, id, next.id⟩
  | resume {r action next} (fresh : r.fresh = true)
      (shallow : r.depth ≤ rig.settings.maxNesting)
      (found : s.library.action? r.collection r.actionId = some action)
      (follows : FollowsRender r.steps next) :
      Announces rig s (.resume r) ⟨r.collection, r.actionId, next.id⟩

/-- What is kept when some steps of an action are scheduled afresh, a signal that a render is
complete keeps. -/
theorem Session.releaseEach_keeps {rig : Rig σ} {p : Session σ → Prop}
    (suspend : ∀ s collection id steps, p s →
      p (s.suspend rig (.start collection id steps) rig.settings.resumeSpan)) :
    ∀ (waits : List RenderWait) (n : Nat) (s : Session σ), p s → p (releaseEach rig waits n s).2 := by
  intro waits
  induction waits with
  | nil => exact fun n s hs => hs
  | cons w rest ih =>
    intro n s hs
    unfold releaseEach
    split
    · exact ih n s hs
    · split
      · exact ih n s hs
      · exact ih (n + 1) _ (suspend s _ _ _ hs)

/-- What a signal that a render is complete schedules is fresh and outside every loop. -/
theorem Session.releaseEach_fresh (rig : Rig σ) (waits : List RenderWait) (n : Nat)
    (s : Session σ) : ∃ new, (releaseEach rig waits n s).2.timetable = s.timetable.extended new ∧
      ∀ e ∈ new, e.payload.fresh = true ∧ e.payload.depth = 0 := by
  refine releaseEach_keeps (p := fun s' => ∃ new, s'.timetable = s.timetable.extended new ∧
    ∀ e ∈ new, e.payload.fresh = true ∧ e.payload.depth = 0) ?_ waits n s ⟨[], by simp, by simp⟩
  rintro s' collection id steps ⟨new, hnew, hfresh⟩
  have hsuspend := suspend_timetable s' rig (.start collection id steps) rig.settings.resumeSpan
  rw [hnew, Timetable.extended_extended] at hsuspend
  exact ⟨_, hsuspend, List.forall_mem_append.mpr ⟨hfresh, List.forall_mem_singleton.mpr ⟨rfl, rfl⟩⟩⟩

namespace Turn

/-- What begins afresh adds to the queue what it announces. -/
theorem Plays.announced {rig : Rig σ} {turn : Turn} {s s' : Session σ} {events : List Event}
    {result : Result} (h : turn.Plays rig s events result s') {w : RenderWait}
    (announces : Announces rig s turn w) : s'.waits = s.waits ++ [w] := by
  obtain ⟨r, action, next, hbegins, hfresh, hshallow, hfound, hfollows, rfl⟩ :
      ∃ r action next, turn.begins s = .ok r ∧ r.fresh = true ∧
        r.depth ≤ rig.settings.maxNesting ∧ s.library.action? r.collection r.actionId = some action ∧
        FollowsRender r.steps next ∧ w = ⟨r.collection, r.actionId, next.id⟩ := by
    cases announces with
    | @play collection id action next found follows =>
      obtain rfl := Library.id_of_action? found
      exact ⟨.start collection action.id action.steps, action, next, by simp only [begins, found],
        rfl, Nat.zero_le _, found, follows, rfl⟩
    | @resume r action next fresh shallow found follows =>
      exact ⟨r, action, next, rfl, fresh, shallow, found, follows, rfl⟩
  cases h with
  | refused failure => cases hbegins.symm.trans failure
  | driven start drives =>
    cases hbegins.symm.trans start
    cases drives with
    | tooDeep deep => omega
    | gone _ missing => cases hfound.symm.trans missing
    | pass _ _ rest =>
      rw [rest.waits_eq rfl, Session.announce, if_pos hfresh, Step.afterRender?_eq_some.mpr hfollows]
      rfl

/-- What announces nothing leaves the queue as it is. -/
theorem Plays.unannounced {rig : Rig σ} {turn : Turn} {s s' : Session σ} {events : List Event}
    {result : Result} (h : turn.Plays rig s events result s')
    (silent : ∀ w, ¬Announces rig s turn w) : s'.waits = s.waits := by
  cases h with
  | refused failure => rfl
  | @driven r _ _ _ start drives =>
    cases drives with
    | tooDeep deep => rfl
    | gone _ missing => rfl
    | @pass _ _ action _ _ _ shallow found rest =>
      rw [rest.waits_eq rfl]
      unfold Session.announce
      split
      · rename_i hfresh
        split
        · rename_i next hnext
          have hfollows := Step.afterRender?_eq_some.mp hnext
          refine absurd ?_ (silent ⟨r.collection, r.actionId, next.id⟩)
          cases turn with
          | resume r' =>
            cases start
            exact .resume hfresh shallow found hfollows
          | play collection id =>
            simp only [begins] at start
            split at start
            · cases start
            · rename_i played hplayed
              cases start
              obtain rfl := Library.id_of_action? hplayed
              exact .play hplayed hfollows
        · rfl
      · rfl

/-- **What a turn adds to the queue is settled when it begins.** A turn that begins afresh, with a
step behind the first wait for a render among its steps, adds the entry of that step; every other
turn leaves the queue as it is. Waits that are reached, failures and the end of the turn make no
difference. What the turn schedules does not begin afresh; what a signal that a render is complete
schedules does. -/
theorem queue_settled_at_start (turn : Turn) (rig : Rig σ) (s : Session σ) {budget : Nat}
    (ends : turn.run rig budget s ≠ .exhausted) :
    (∃ result s', turn.run rig budget s = .ofResult result s' ∧
      (∀ w, Announces rig s turn w → s'.waits = s.waits ++ [w]) ∧
      ((∀ w, ¬Announces rig s turn w) → s'.waits = s.waits) ∧
      ∃ new, s'.timetable = s.timetable.extended new ∧ ∀ e ∈ new, e.payload.fresh = false) ∧
    ∃ new, (s.renderComplete rig).2.timetable = s.timetable.extended new ∧
      ∀ e ∈ new, e.payload.fresh = true := by
  refine ⟨?_, ?_⟩
  · obtain ⟨result, s', hrun⟩ := Run.eq_ofResult ends
    obtain ⟨events, hplays⟩ := run_iff_plays.mp ⟨budget, hrun⟩
    obtain ⟨new, hnew, -, hstale⟩ := hplays.course.scheduled
    exact ⟨result, s', hrun, fun w => hplays.announced, hplays.unannounced, new, hnew, hstale⟩
  · obtain ⟨new, hnew, hfresh⟩ := Session.releaseEach_fresh rig s.waits 0 { s with waits := [] }
    exact ⟨new, hnew, fun e he => (hfresh e he).1⟩

end Turn

/-- A wait for a render in the body of a loop that does not run. -/
def unreachedRender : List Step := [
  .recorded "l" "ar.event:\x7b\"Type\":\"Loop\",\"StatementType\":\"repeat\",\"RepeatCount\":0\x7d",
  .recorded "r" "ar.event:\x7b\"Type\":\"Render Complete\"\x7d",
  .recorded "e" "ar.event:\x7b\"Type\":\"EndLoop\"\x7d",
  .recorded "x" "bpy.context.scene.x = 1"]

theorem unreachedRender_outcome :
    (Turn.rehearse 10 unreachedRender).seen? Session.waits =
      some (some .finished, [⟨.locals, "a", "e"⟩]) := by
  decide +kernel

/-- A signal then schedules what stands behind the wait, and the command is run once more. -/
theorem unreachedRender_released :
    ((Turn.rehearse 10 unreachedRender).andThen fun _ s =>
      (s.renderComplete .rehearsal).2.tick .rehearsal 10 PlaySettings.usual.resumeSpan).seen?
        (fun s => s.host.journal.map JournalEntry.command) =
      some (some ⟨1, 0, []⟩, ["bpy.context.scene.x = 1", "bpy.context.scene.x = 1"]) := by
  decide +kernel

/-- **A turn that is played to its end may add to the queue**: what stands behind a wait that was
not reached is released by the next signal, and run again. -/
theorem unreachedRender_queued :
    ∃ s₁ report s₂, Turn.rehearse 10 unreachedRender = .done .finished s₁ ∧
      s₁.waits ≠ (Session.rehearsal unreachedRender).waits ∧
      (s₁.renderComplete .rehearsal).2.tick .rehearsal 10 PlaySettings.usual.resumeSpan =
        .done report s₂ ∧
      s₂.host.journal.map JournalEntry.command =
        ["bpy.context.scene.x = 1", "bpy.context.scene.x = 1"] := by
  obtain ⟨s₁, hrun, hwaits⟩ := Run.of_seen?_done unreachedRender_outcome
  obtain ⟨s₂, hreleased, hjournal⟩ := Run.of_seen?_done unreachedRender_released
  rw [hrun, Run.andThen] at hreleased
  exact ⟨s₁, _, s₂, hrun, by simp [hwaits, Session.rehearsal, Session.begin], hreleased, hjournal⟩

theorem unreachedRender_queue_settled :
    Announces .rehearsal (.rehearsal unreachedRender) (.play .locals "a") ⟨.locals, "a", "e"⟩ ∧
    (∃ result s', Turn.rehearse 10 unreachedRender = .ofResult result s' ∧
      (∀ w, Announces .rehearsal (.rehearsal unreachedRender) (.play .locals "a") w →
        s'.waits = [] ++ [w]) ∧
      ((∀ w, ¬Announces .rehearsal (.rehearsal unreachedRender) (.play .locals "a") w) →
        s'.waits = []) ∧
      ∃ new, s'.timetable = Timetable.empty.extended new ∧ ∀ e ∈ new, e.payload.fresh = false) ∧
    ∃ new, ((Session.rehearsal unreachedRender).renderComplete .rehearsal).2.timetable =
      Timetable.empty.extended new ∧ ∀ e ∈ new, e.payload.fresh = true := by
  have hfollows : FollowsRender unreachedRender unreachedRender[2] :=
    ⟨[unreachedRender[0]], unreachedRender[1], [unreachedRender[3]], rfl, by decide +kernel,
      by decide +kernel⟩
  have hannounces : Announces .rehearsal (.rehearsal unreachedRender) (.play .locals "a")
      ⟨.locals, "a", unreachedRender[2].id⟩ := .play rfl hfollows
  exact ⟨hannounces, Turn.queue_settled_at_start (.play .locals "a") .rehearsal
    (.rehearsal unreachedRender) (Run.ne_exhausted_of_seen? unreachedRender_outcome)⟩

end Replay
