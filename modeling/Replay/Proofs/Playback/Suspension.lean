import Replay.Proofs.Playback.Adequacy

/-!
# Suspension

A wait suspends the turn of the player in which it is reached. In the pass that a turn begins with,
in those that follow it and in the bodies of counted loops, the wait is the last thing that the turn
comes to, and the turn says that it is suspended. Inside the body of a conditional or range loop it
only ends that body: the loop goes on.

* `Plays.course` — which waits end a turn, and what is scheduled
* `Comes.suspends` — what comes to such a wait does end
* `Turn.stopsAtWait_iff` — a wait ends the turn unless it is inside the body of such a loop
-/

set_option autoImplicit false

namespace Replay

variable {σ : Type}

/-! ## Waits -/

namespace Event

/-- Whether a step that waits for a time is reached. -/
def isTimer : Event → Bool
  | reached _ step => step.isTimer
  | asked _ _ => false

/-- Whether a step that waits for a render is reached. -/
def isRender : Event → Bool
  | reached _ step => step.awaitsRender
  | asked _ _ => false

/-- Whether a step that waits is reached. -/
def waits (e : Event) : Bool := e.isTimer || e.isRender

theorem waits_reached (depth : Nat) (step : Step) :
    (reached depth step).waits = (step.isTimer || step.awaitsRender) := rfl

theorem waits_effect {depth : Nat} {step : Step} {h : Host σ} {g : Grouping} {base : Surface}
    {f : σ → Except PlayError Unit × σ} (effect : step.effect? h g base = some f) :
    (reached depth step).waits = false := by
  obtain ⟨htimer, hrender⟩ := Step.effect?_not_waits effect
  simp [waits_reached, htimer, hrender]

theorem waits_loop {depth : Nat} {step : Step} {l : Loop}
    (reads : step.instruction = .ok (.directive (.loop l))) :
    (reached depth step).waits = false := by
  simp [waits_reached, Step.isTimer, Step.awaitsRender, reads]

theorem waits_loopEnd {depth : Nat} {step : Step}
    (reads : step.instruction = .ok (.directive .loopEnd)) :
    (reached depth step).waits = false := by
  simp [waits_reached, Step.isTimer, Step.awaitsRender, reads]

end Event

/-! ## What is scheduled -/

/-- The timetable with some more entries, numbered or not. -/
def Timetable.extended {α : Type} (t : Timetable α) (new : List (TimetableEntry α)) : Timetable α :=
  ⟨t.issued + new.length, t.waiting ++ new⟩

@[simp] theorem Timetable.extended_nil {α : Type} (t : Timetable α) : t.extended [] = t := by
  simp [extended]

theorem Timetable.extended_extended {α : Type} (t : Timetable α) (a b : List (TimetableEntry α)) :
    (t.extended a).extended b = t.extended (a ++ b) := by
  simp [extended, Nat.add_assoc]

theorem Session.suspend_timetable (s : Session σ) (rig : Rig σ) (r : Resumption) (span : Time) :
    (s.suspend rig r span).timetable = s.timetable.extended
      [⟨s.timetable.issued, Time.deadline (rig.clock s.timetable.issued) span, r⟩] := rfl

@[simp] theorem Session.announce_timetable (s : Session σ) (r : Resumption) :
    (s.announce r).timetable = s.timetable := by
  unfold announce
  split
  · split <;> rfl
  · rfl

/-! ## The waits of a turn -/

/-- What the waits of an activity so deep have to do with its end: those right inside it suspend it,
those further down do not, and each wait for a time makes one entry in the timetable, which is not
fresh. -/
structure Course (depth : Nat) (s : Session σ) (events : List Event) (result : Result)
    (s' : Session σ) : Prop where
  deep : ∀ e ∈ events, depth ≤ e.depth
  last : events.Pairwise fun e _ => ¬(e.waits ∧ e.depth = depth)
  suspended : result = .ok .suspended ↔ ∃ e ∈ events, e.waits ∧ e.depth = depth
  scheduled : ∃ new, s'.timetable = s.timetable.extended new ∧
    new.length = events.countP Event.isTimer ∧ ∀ e ∈ new, e.payload.fresh = false

namespace Course

variable {depth : Nat} {s s' s'' : Session σ} {events events' : List Event} {result : Result}

/-- Nothing happens, and nothing is left to do. -/
theorem quiet (hresult : result ≠ .ok .suspended) (htimetable : s'.timetable = s.timetable) :
    Course depth s [] result s' := by
  refine ⟨by simp, .nil, by simpa using hresult, [], ?_, rfl, by simp⟩
  rw [htimetable, Timetable.extended_nil]

/-- The timetable is all that matters of the session at the beginning. -/
theorem of_timetable (h : Course depth s events result s') (hs : s''.timetable = s.timetable) :
    Course depth s'' events result s' :=
  ⟨h.deep, h.last, h.suspended, by rw [hs]; exact h.scheduled⟩

/-- An event that is no wait comes first. -/
theorem cons (h : Course depth s events result s') {e : Event} (hdepth : e.depth = depth)
    (hwaits : e.waits = false) : Course depth s (e :: events) result s' := by
  have htimer : e.isTimer = false := by
    unfold Event.waits at hwaits
    exact (Bool.or_eq_false_iff.mp hwaits).1
  refine ⟨?_, ?_, ?_, ?_⟩
  · intro e' he'
    rcases List.mem_cons.mp he' with rfl | he'
    · exact Nat.le_of_eq hdepth.symm
    · exact h.deep e' he'
  · exact List.pairwise_cons.mpr ⟨fun _ _ => by simp [hwaits], h.last⟩
  · rw [h.suspended]
    simp [hwaits]
  · obtain ⟨new, hnew, hlength, hstale⟩ := h.scheduled
    exact ⟨new, hnew, by simp [htimer, hlength], hstale⟩

/-- An event that is no wait, and a failure. -/
theorem failure {e : Event} {error : PlayError} (hdepth : e.depth = depth)
    (hwaits : e.waits = false) (htimetable : s'.timetable = s.timetable) :
    Course depth s [e] (.error error) s' :=
  (quiet (by simp) htimetable).cons hdepth hwaits

/-- The body of a loop that is played inside a pass, and what comes after it. -/
theorem append (h : Course (depth + 1) s events result s')
    {result' : Result} (h' : Course depth s' events' result' s'') :
    Course depth s (events ++ events') result' s'' := by
  refine ⟨?_, ?_, ?_, ?_⟩
  · intro e he
    rcases List.mem_append.mp he with he | he
    · exact Nat.le_of_succ_le (h.deep e he)
    · exact h'.deep e he
  · refine List.pairwise_append.mpr ⟨?_, h'.last, ?_⟩
    · refine List.Pairwise.imp_of_mem (fun he _ _ hown => ?_) h.last
      have := h.deep _ he
      omega
    · intro e he _ _ hown
      have := h.deep e he
      omega
  · rw [h'.suspended]
    constructor
    · rintro ⟨e, he, hown⟩
      exact ⟨e, List.mem_append_right _ he, hown⟩
    · rintro ⟨e, he, hwaits, hdepth⟩
      rcases List.mem_append.mp he with he | he
      · have := h.deep e he
        omega
      · exact ⟨e, he, hwaits, hdepth⟩
  · obtain ⟨new, hnew, hlength, hstale⟩ := h.scheduled
    obtain ⟨new', hnew', hlength', hstale'⟩ := h'.scheduled
    refine ⟨new ++ new', ?_, ?_, ?_⟩
    · rw [hnew', hnew, Timetable.extended_extended]
    · rw [List.length_append, List.countP_append, hlength, hlength']
    · intro e he
      rcases List.mem_append.mp he with he | he
      · exact hstale e he
      · exact hstale' e he

/-- The body of a loop fails, and with it what is around it. -/
theorem inside {error : PlayError} (h : Course (depth + 1) s events (.error error) s') :
    Course depth s events (.error error) s' := by
  have hnothing : Course depth s' [] (.error error) s' := quiet (by simp) rfl
  simpa using h.append hnothing

end Course

/-- **The waits right inside an activity, and no others, suspend it.** -/
theorem Plays.course {rig : Rig σ} {a : Activity} {s s' : Session σ} {events : List Event}
    {result : Result} (h : Plays rig a s events result s') :
    Course a.depth s events result s' := by
  induction h with
  | tooDeep deep => exact .quiet (by simp) rfl
  | gone shallow missing => exact .quiet (by simp) rfl
  | pass shallow found _ ih => exact ih.of_timetable (Session.announce_timetable _ _).symm
  | finish closed => exact .quiet (by simp) rfl
  | close closed _ ih =>
    obtain ⟨steps, frames, rfl⟩ := Resumption.eq_proceed closed
    exact ih
  | act effect done _ ih =>
    refine (ih.of_timetable ?_).cons rfl (Event.waits_effect effect)
    rfl
  | fail effect failed => exact .failure rfl (Event.waits_effect effect) rfl
  | @awaitRender p step steps s reads =>
    have hrender : step.awaitsRender = true := by simp [Step.awaitsRender, reads]
    have htimer : step.isTimer = false := by simp [Step.isTimer, reads]
    refine ⟨by simp [Event.depth, Activity.depth], by simp, ?_, [], by simp, ?_, by simp⟩
    · simp [Event.waits_reached, hrender, Event.depth, Activity.depth]
    · simp [Event.isTimer, htimer]
  | @wait p step steps s t reads =>
    have htimer : step.isTimer = true := by simp [Step.isTimer, reads]
    refine ⟨by simp [Event.depth, Activity.depth], by simp, ?_, [_], rfl, ?_, ?_⟩
    · simp [Event.waits_reached, htimer, Event.depth, Activity.depth]
    · simp [Event.isTimer, htimer]
    · simp [Leg.behind, Resumption.proceed]
  | loopEnd reads _ ih => exact ih.cons rfl (Event.waits_loopEnd reads)
  | unmatched reads _ _ ih | skip reads _ _ _ _ ih | range reads _ _ _ _ ih
  | whileTrue reads _ _ _ ih => exact ih.cons rfl (Event.waits_loop reads)
  | enter reads _ _ _ _ ih => exact ih.cons rfl (Event.waits_loop reads)
  | badLoop reads closing repeats => exact .failure rfl (Event.waits_loop reads) rfl
  | badRange reads closing repeats counts => exact .failure rfl (Event.waits_loop reads) rfl
  | noneLeft _ ih => exact ih
  | nextRound _ ih => exact ih
  | enough holds _ ih | again holds _ ih =>
    refine (ih.of_timetable ?_).cons rfl rfl
    rfl
  | unknown holds => exact .failure rfl rfl rfl
  | roundTooDeep deep => exact .quiet (by simp) rfl
  | roundFailed shallow _ ih => exact .inside ih
  | roundDone shallow _ _ ih ih' => exact ih.append ih'

theorem Turn.Plays.course {turn : Turn} {rig : Rig σ} {s s' : Session σ} {events : List Event}
    {result : Result} (h : turn.Plays rig s events result s') :
    Course turn.depth s events result s' := by
  cases h with
  | refused _ => exact .quiet (by simp) rfl
  | driven start drives => exact depth_of_begins start ▸ drives.course

/-! ## Calls that come to a wait -/

/-- A step that waits for a time says for how long. -/
theorem Step.reads_of_isTimer {step : Step} (h : step.isTimer = true) :
    ∃ t, step.instruction = .ok (.directive (.wait t)) := by
  unfold isTimer at h
  split at h
  · exact ⟨_, ‹_›⟩
  · cases h

theorem Step.reads_of_awaitsRender {step : Step} (h : step.awaitsRender = true) :
    step.instruction = .ok (.directive .awaitRender) := by
  unfold awaitsRender at h
  split at h
  · assumption
  · cases h

namespace Comes

variable {rig : Rig σ} {a : Activity} {s : Session σ} {events : List Event}

/-- No event is less deep than the activity that comes to it. -/
theorem deep (h : Comes rig a s events) : ∀ e ∈ events, a.depth ≤ e.depth := by
  induction h with
  | nothing => simp
  | pass shallow found _ ih => exact ih
  | close closed _ ih =>
    obtain ⟨steps, frames, rfl⟩ := Resumption.eq_proceed closed
    exact ih
  | reached => simp [Event.depth, Activity.depth]
  | asked => simp [Event.depth, Activity.depth]
  | act _ _ _ ih | loopEnd _ _ ih | unmatched _ _ _ ih | enough _ _ ih | again _ _ ih =>
    exact List.forall_mem_cons.mpr ⟨Nat.le_refl _, ih⟩
  | enter _ _ _ _ _ ih | skip _ _ _ _ _ ih | range _ _ _ _ _ ih | whileTrue _ _ _ _ ih =>
    exact List.forall_mem_cons.mpr ⟨Nat.le_refl _, ih⟩
  | noneLeft _ ih => exact ih
  | nextRound _ ih => exact ih
  | round shallow _ ih => exact fun e he => Nat.le_of_succ_le (ih e he)
  | roundDone shallow inside _ ih =>
    intro e he
    rcases List.mem_append.mp he with he | he
    · exact Nat.le_of_succ_le (inside.course.deep e he)
    · exact ih e he

/-- **What comes to a wait right inside it ends there, suspended.** -/
theorem suspends (h : Comes rig a s events) {e : Event} (he : e ∈ events) (hwaits : e.waits = true)
    (hdepth : e.depth = a.depth) : ∃ s', Plays rig a s events (.ok .suspended) s' := by
  -- an event that is no wait is passed over
  have behind : ∀ {first : Event} {rest : List Event}, e ∈ first :: rest → first.waits = false →
      e ∈ rest := by
    intro first rest he hfirst
    rcases List.mem_cons.mp he with rfl | he
    · simp [hfirst] at hwaits
    · exact he
  induction h with
  | nothing => cases he
  | pass shallow found _ ih =>
    obtain ⟨s', hplays⟩ := ih he hdepth
    exact ⟨s', .pass shallow found hplays⟩
  | close closed _ ih =>
    obtain ⟨steps, frames, rfl⟩ := Resumption.eq_proceed closed
    obtain ⟨s', hplays⟩ := ih he hdepth
    exact ⟨s', .close closed hplays⟩
  | @reached p step steps s =>
    cases List.mem_singleton.mp he
    rw [Event.waits_reached, Bool.or_eq_true] at hwaits
    rcases hwaits with htimer | hrender
    · obtain ⟨t, reads⟩ := Step.reads_of_isTimer htimer
      exact ⟨_, .wait reads⟩
    · exact ⟨_, .awaitRender (Step.reads_of_awaitsRender hrender)⟩
  | asked =>
    cases List.mem_singleton.mp he
    cases hwaits
  | act effect done _ ih =>
    obtain ⟨s', hplays⟩ := ih (behind he (Event.waits_effect effect)) hdepth
    exact ⟨s', .act effect done hplays⟩
  | loopEnd reads _ ih =>
    obtain ⟨s', hplays⟩ := ih (behind he (Event.waits_loopEnd reads)) hdepth
    exact ⟨s', .loopEnd reads hplays⟩
  | unmatched reads closing _ ih =>
    obtain ⟨s', hplays⟩ := ih (behind he (Event.waits_loop reads)) hdepth
    exact ⟨s', .unmatched reads closing hplays⟩
  | enter reads closing repeats positive _ ih =>
    obtain ⟨s', hplays⟩ := ih (behind he (Event.waits_loop reads)) hdepth
    exact ⟨s', .enter reads closing repeats positive hplays⟩
  | skip reads closing repeats nought _ ih =>
    obtain ⟨s', hplays⟩ := ih (behind he (Event.waits_loop reads)) hdepth
    exact ⟨s', .skip reads closing repeats nought hplays⟩
  | range reads closing repeats counts _ ih =>
    obtain ⟨s', hplays⟩ := ih (behind he (Event.waits_loop reads)) hdepth
    exact ⟨s', .range reads closing repeats counts hplays⟩
  | whileTrue reads closing repeats _ ih =>
    obtain ⟨s', hplays⟩ := ih (behind he (Event.waits_loop reads)) hdepth
    exact ⟨s', .whileTrue reads closing repeats hplays⟩
  | noneLeft _ ih =>
    obtain ⟨s', hplays⟩ := ih he hdepth
    exact ⟨s', .noneLeft hplays⟩
  | nextRound _ ih =>
    obtain ⟨s', hplays⟩ := ih he hdepth
    exact ⟨s', .nextRound hplays⟩
  | enough holds _ ih =>
    obtain ⟨s', hplays⟩ := ih (behind he rfl) hdepth
    exact ⟨s', .enough holds hplays⟩
  | again holds _ ih =>
    obtain ⟨s', hplays⟩ := ih (behind he rfl) hdepth
    exact ⟨s', .again holds hplays⟩
  | round shallow inside _ =>
    have := inside.deep e he
    simp only [Activity.depth, Resumption.nested] at this hdepth
    omega
  | roundDone shallow inside _ ih =>
    rcases List.mem_append.mp he with he | he
    · have := inside.course.deep e he
      simp only [Activity.depth, Resumption.nested] at this hdepth
      omega
    · obtain ⟨s', hplays⟩ := ih he hdepth
      exact ⟨s', .roundDone shallow inside hplays⟩

end Comes

namespace Turn

variable {turn : Turn} {rig : Rig σ} {s s' : Session σ} {events : List Event} {result : Result}

theorem Comes.suspends (h : turn.Comes rig s events) {e : Event} (he : e ∈ events)
    (hwaits : e.waits = true) (hdepth : e.depth = turn.depth) :
    ∃ s', turn.Plays rig s events (.ok .suspended) s' := by
  obtain ⟨r, hbegins, hcomes⟩ := h
  obtain ⟨s', hplays⟩ := hcomes.suspends he hwaits (hdepth.trans (depth_of_begins hbegins).symm)
  exact ⟨s', .driven hbegins hplays⟩

/-- A turn that ends without an event was refused, or has come to all its events. -/
theorem Plays.comes (h : turn.Plays rig s events result s') :
    events = [] ∨ turn.Comes rig s events := by
  cases h with
  | refused _ => exact .inl rfl
  | driven start drives => exact .inr ⟨_, start, drives.comes⟩

end Turn

/-! ## Turns that a wait ends -/

/-- A turn stops at every wait that it comes to: the wait is the last of its events, the turn ends
suspended, and it has then made one entry in the timetable if it waits for a time, and none if it
waits for a render. A turn that ends in another way makes no entry. -/
structure Turn.StopsAtWait (turn : Turn) (rig : Rig σ) (s : Session σ) : Prop where
  stops : ∀ events, turn.Comes rig s events → ∀ e ∈ events, e.waits →
    (∃ before, events = before ++ [e]) ∧
    ∃ budget s' new, turn.run rig budget s = .done .suspended s' ∧
      turn.Plays rig s events (.ok .suspended) s' ∧
      s'.timetable = s.timetable.extended new ∧ new.length = if e.isTimer then 1 else 0
  otherwise : ∀ budget result s', turn.run rig budget s = .ofResult result s' →
    result ≠ .ok .suspended → s'.timetable = s.timetable

namespace Course

variable {depth : Nat} {s s' : Session σ} {events : List Event} {result : Result}

/-- A wait right inside an activity is the last of its events, if no other wait is further down. -/
theorem eq_concat (h : Course depth s events result s')
    (own : ∀ e ∈ events, e.waits → e.depth = depth) {e : Event} (he : e ∈ events)
    (hwaits : e.waits = true) :
    ∃ before, events = before ++ [e] ∧ ∀ e ∈ before, e.waits = false := by
  obtain ⟨before, after, rfl⟩ := List.append_of_mem he
  obtain ⟨-, hafter, hbefore⟩ := List.pairwise_append.mp h.last
  have hnil : after = [] := by
    refine List.eq_nil_iff_forall_not_mem.mpr fun x hx => ?_
    exact (List.pairwise_cons.mp hafter).1 x hx ⟨hwaits, own e he hwaits⟩
  subst hnil
  refine ⟨before, rfl, fun x hx => ?_⟩
  have hnot := hbefore x hx e List.mem_cons_self
  have hown := own x (List.mem_append_left _ hx)
  exact Bool.eq_false_iff.mpr fun hxwaits => hnot ⟨hxwaits, hown hxwaits⟩

/-- Without waits nothing is scheduled. -/
theorem timetable_eq (h : Course depth s events result s') (silent : ∀ e ∈ events, e.waits = false) :
    s'.timetable = s.timetable := by
  obtain ⟨new, hnew, hlength, -⟩ := h.scheduled
  rw [List.countP_eq_zero.mpr fun e he => ?_] at hlength
  · rw [hnew, List.eq_nil_of_length_eq_zero hlength, Timetable.extended_nil]
  · have := silent e he
    simp_all [Event.waits]

end Course

/-- **A wait ends the turn in which it is reached, unless it is reached inside the body of a
conditional or range loop.** A turn stops at its waits if and only if every wait that it comes to,
whether or not the turn ever ends, is no deeper than the turn began. -/
theorem Turn.stopsAtWait_iff (turn : Turn) (rig : Rig σ) (s : Session σ) :
    turn.StopsAtWait rig s ↔
      ∀ events, turn.Comes rig s events → ∀ e ∈ events, e.waits → e.depth = turn.depth := by
  constructor
  · intro stops events hcomes e he hwaits
    obtain ⟨⟨before, hevents⟩, _, _, _, _, hplays, _⟩ := stops.stops events hcomes e he hwaits
    -- the turn is suspended, so one of its waits is right inside it, and both are the last event
    obtain ⟨own, hown, hownWaits, hdepth⟩ := hplays.course.suspended.mp rfl
    obtain ⟨⟨before', hevents'⟩, _⟩ := stops.stops events hcomes own hown hownWaits
    obtain ⟨-, hsame⟩ := List.append_inj' (hevents.symm.trans hevents') rfl
    cases hsame
    exact hdepth
  · intro own
    refine ⟨?_, ?_⟩
    · intro events hcomes e he hwaits
      obtain ⟨s', hplays⟩ := hcomes.suspends he hwaits (own events hcomes e he hwaits)
      obtain ⟨budget, hrun⟩ := run_iff_plays.mpr ⟨events, hplays⟩
      obtain ⟨before, rfl, hbefore⟩ := hplays.course.eq_concat (own events hcomes) he hwaits
      obtain ⟨new, hnew, hlength, -⟩ := hplays.course.scheduled
      refine ⟨⟨before, rfl⟩, budget, s', new, hrun, hplays, hnew, ?_⟩
      rw [hlength, List.countP_append, List.countP_eq_zero.mpr fun x hx => ?_]
      · cases htimer : e.isTimer <;> simp [htimer]
      · have := hbefore x hx
        simp_all [Event.waits]
    · intro budget result s' hrun hresult
      obtain ⟨events, hplays⟩ := run_iff_plays.mp ⟨budget, hrun⟩
      refine hplays.course.timetable_eq fun e he => Bool.eq_false_iff.mpr fun hwaits => hresult ?_
      rcases hplays.comes with rfl | hcomes
      · cases he
      · exact hplays.course.suspended.mpr ⟨e, he, hwaits, own events hcomes e he hwaits⟩

/-- A wait inside the body of a range loop of two rounds. -/
def waitingRounds : List Step := [
  .recorded "l" ("ar.event:\x7b\"Type\":\"Loop\",\"StatementType\":\"count\"," ++
    "\"Startnumber\":0,\"Endnumber\":2,\"Stepnumber\":1\x7d"),
  .recorded "t" "ar.event:\x7b\"Type\":\"Timer\",\"Time\":0\x7d",
  .recorded "e" "ar.event:\x7b\"Type\":\"EndLoop\"\x7d"]

/-- Both rounds are begun, and the action is played to its end. -/
theorem waitingRounds_outcome :
    (Turn.rehearse 10 waitingRounds).seen? Session.pending = some (some .finished, 2) := by
  decide +kernel

/-- **A wait inside the body of a range loop does not end the turn.** -/
theorem waitingRounds_not_stopsAtWait :
    ¬(Turn.play .locals "a").StopsAtWait .rehearsal (.rehearsal waitingRounds) := by
  intro stops
  obtain ⟨s', hrun, hpending⟩ := Run.of_seen?_done waitingRounds_outcome
  have htimetable : s'.timetable = (Session.rehearsal waitingRounds).timetable :=
    stops.otherwise 10 (.ok .finished) s' hrun (by simp)
  have hnone : s'.pending = 0 := by
    unfold Session.pending
    rw [htimetable]
    rfl
  omega

end Replay
