import Replay.Proofs.Playback.LoopBodies
import Replay.Proofs.Playback.RenderQueue

/-!
# More steps behind

What is played of some steps is played in the same way if other steps stand behind them, unless a
loop that is open at the end of the former is ended by the latter. Where playback would have come to
its end, it comes to the steps behind; what it schedules has them behind, too.

* `Detached` — no loop is ended by the steps behind
* `Longer` — a pass with more steps behind the outermost of its lists
* `Plays.prolonged` — what is played with more steps behind
-/

set_option autoImplicit false

namespace Replay

variable {σ : Type}

/-! ## Steps behind others -/

/-- A loop that begins among some steps and has no end there is not ended by the steps behind. -/
def Detached (steps behind : List Step) : Prop :=
  ∀ before opening rest, steps = before ++ opening :: rest → opening.bracket = .opens →
    Step.closing? rest = none → Step.closing? (rest ++ behind) = none

theorem Detached.of_suffix {steps rest behind : List Step} (h : Detached steps behind)
    (suffix : rest <:+ steps) : Detached rest behind := by
  obtain ⟨front, rfl⟩ := suffix
  rintro before opening rest' rfl
  exact h (front ++ before) opening rest' (by simp)

/-- Steps at which a pass without loops around it ends, or rests. -/
inductive Halt : List Step → Prop
  | ended : Halt []
  | rests {wait rest} (renders : wait.awaitsRender = true) : Halt (wait :: rest)

/-- A pass has more steps behind the outermost of its lists: `Longer behind frames steps frames'
steps'` for the loops around it and its own steps, without and with them. None of the steps of the
pass waits for a render. -/
inductive Longer (behind : List Step) : List Frame → List Step → List Frame → List Step → Prop
  | here {steps} (plain : ∀ step ∈ steps, step.awaitsRender = false)
      (detached : Detached steps behind) : Longer behind [] steps [] (steps ++ behind)
  | inside {f outer steps outer' after} (plain : ∀ step ∈ steps, step.awaitsRender = false)
      (body : ∀ step ∈ f.body, step.awaitsRender = false)
      (outside : Longer behind outer f.after outer' after) :
      Longer behind (f :: outer) steps ({ f with after := after } :: outer') steps

namespace Longer

variable {behind : List Step} {frames frames' : List Frame} {step : Step}
  {steps steps' whole : List Step} {place : Nat}

theorem plain (h : Longer behind frames steps frames' steps') :
    ∀ step ∈ steps, step.awaitsRender = false := by
  cases h with
  | here plain _ | inside plain _ _ => exact plain

theorem drop (h : Longer behind frames steps frames' steps') {n : Nat} (le : n ≤ steps.length) :
    Longer behind frames (steps.drop n) frames' (steps'.drop n) := by
  have hplain : ∀ step ∈ steps.drop n, step.awaitsRender = false :=
    fun step hstep => h.plain step (List.mem_of_mem_drop hstep)
  cases h with
  | here _ detached =>
    rw [List.drop_append_of_le_length le]
    exact .here hplain (detached.of_suffix (List.drop_suffix n steps))
  | inside _ body outside => exact .inside hplain body outside

theorem take (h : Longer behind frames steps frames' steps') {n : Nat} (le : n ≤ steps.length) :
    steps'.take n = steps.take n := by
  cases h with
  | here _ _ => exact List.take_append_of_le_length le
  | inside _ _ _ => rfl

/-- The first step comes first. -/
theorem cons (h : Longer behind frames (step :: steps) frames' whole) :
    ∃ steps', whole = step :: steps' ∧ Longer behind frames steps frames' steps' := by
  have htail := h.drop (n := 1) (by simp)
  cases h with
  | here _ _ => exact ⟨_, rfl, htail⟩
  | inside _ _ _ => exact ⟨_, rfl, htail⟩

/-- The end of a loop stays where it is. -/
theorem closing (h : Longer behind frames steps frames' steps')
    (closing : Step.closing? steps = some place) : Step.closing? steps' = some place := by
  cases h with
  | here _ _ => exact (Step.closingFrom_append behind closing).1
  | inside _ _ _ => exact closing

/-- A loop without an end stays so. -/
theorem unmatched (h : Longer behind frames (step :: steps) frames' (step :: steps'))
    (opens : step.bracket = .opens) (closing : Step.closing? steps = none) :
    Step.closing? steps' = none := by
  generalize hwhole : step :: steps' = whole at h
  cases h with
  | here _ detached =>
    obtain ⟨-, rfl⟩ := List.cons.inj hwhole
    exact detached [] step steps rfl opens closing
  | inside _ _ _ =>
    obtain ⟨-, rfl⟩ := List.cons.inj hwhole
    exact closing

/-- The steps behind say what the longer pass is. -/
theorem unique {frames'' : List Frame} {steps'' : List Step}
    (h : Longer behind frames steps frames' steps')
    (h' : Longer behind frames steps frames'' steps'') : frames'' = frames' ∧ steps'' = steps' := by
  induction h generalizing frames'' steps'' with
  | here _ _ =>
    cases h'
    exact ⟨rfl, rfl⟩
  | inside _ _ _ ih =>
    cases h' with
    | inside _ _ outside' =>
      obtain ⟨rfl, rfl⟩ := ih outside'
      exact ⟨rfl, rfl⟩

/-- A counted loop is entered. -/
theorem enter (h : Longer behind frames steps frames' steps')
    (closing : Step.closing? steps = some place) (count : Int) :
    Longer behind (⟨steps.take place, count, steps.drop (place + 1)⟩ :: frames) (steps.take place)
      (⟨steps.take place, count, steps'.drop (place + 1)⟩ :: frames') (steps.take place) := by
  have hplain : ∀ step ∈ steps.take place, step.awaitsRender = false :=
    fun step hstep => h.plain step (List.mem_of_mem_take hstep)
  exact .inside hplain hplain (h.drop (Step.lt_of_closing? closing))

end Longer

/-! ## Resumptions and activities with more steps behind -/

/-- Two resumptions that may differ in their steps and loops, and in one of them being fresh. -/
structure Resumption.Alike (r r' : Resumption) : Prop where
  collection : r'.collection = r.collection
  actionId : r'.actionId = r.actionId
  surface : r'.surface = r.surface
  depth : r'.depth = r.depth

namespace Resumption.Alike

variable {r r' : Resumption}

theorem proceed (h : r.Alike r') {steps steps' : List Step} {frames frames' : List Frame} :
    (r.proceed steps frames).Alike (r'.proceed steps' frames') :=
  ⟨h.collection, h.actionId, h.surface, h.depth⟩

theorem nested (h : r.Alike r') (body : List Step) : r'.nested body = r.nested body := by
  simp only [Resumption.nested, Resumption.proceed, h.collection, h.actionId, h.surface, h.depth]

theorem alert (h : r.Alike r') (s : Session σ) (culprit : Step) :
    s.alert r' culprit = s.alert r culprit := by
  rw [Session.alert, Session.alert, h.collection, h.actionId]

end Resumption.Alike

/-- A resumption that is not fresh has more steps behind. -/
structure Resumption.Longer (behind : List Step) (r r' : Resumption) : Prop where
  alike : r.Alike r'
  stale : r.fresh = false
  stale' : r'.fresh = false
  longer : Replay.Longer behind r.frames r.steps r'.frames r'.steps

theorem Resumption.Longer.unique {behind : List Step} {r r' r'' : Resumption}
    (h : r.Longer behind r') (h' : r.Longer behind r'') : r'' = r' := by
  obtain ⟨hframes, hsteps⟩ := h.longer.unique h'.longer
  obtain ⟨alike, -, stale, -⟩ := h
  obtain ⟨alike', -, stale', -⟩ := h'
  cases r'
  cases r''
  simp only [Resumption.mk.injEq]
  exact ⟨alike'.collection.trans alike.collection.symm, alike'.actionId.trans alike.actionId.symm,
    hsteps, hframes, alike'.surface.trans alike.surface.symm, stale'.trans stale.symm,
    alike'.depth.trans alike.depth.symm⟩

/-- Two passes over the steps of such resumptions. -/
structure Leg.Alike (p p' : Leg) : Prop where
  source : p.source.Alike p'.source
  grouping : p'.grouping = p.grouping
  base : p'.base = p.base

/-- An activity has more steps behind. -/
inductive Activity.Longer (behind : List Step) : Activity → Activity → Prop
  | drive {r r'} (longer : r.Longer behind r') : Longer behind (.drive r) (.drive r')
  | walk {p p' steps steps'} (alike : p.Alike p')
      (longer : Replay.Longer behind p.source.frames steps p'.source.frames steps') :
      Longer behind (.walk p steps) (.walk p' steps')
  | loop {p p' opening body steps steps' again} (alike : p.Alike p')
      (longer : Replay.Longer behind p.source.frames steps p'.source.frames steps') :
      Longer behind (.loop p opening body steps again) (.loop p' opening body steps' again)
  | round {p p' opening body steps steps' again} (alike : p.Alike p')
      (longer : Replay.Longer behind p.source.frames steps p'.source.frames steps') :
      Longer behind (.round p opening body steps again) (.round p' opening body steps' again)

namespace Longer

variable {behind steps' : List Step} {r r' next : Resumption}

/-- A pass that has come to its end, and to the end of every loop, has the steps behind left. -/
theorem finish (longer : Longer behind r.frames [] r'.frames steps')
    (closed : r.close = .finished) :
    r'.close = .finished ∧ steps' = behind := by
  unfold Resumption.close at closed ⊢
  generalize r.frames = frames at longer closed
  generalize r'.frames = frames' at longer
  cases longer with
  | here _ _ => exact ⟨rfl, rfl⟩
  | inside _ _ _ =>
    simp only at closed
    split at closed <;> cases closed

/-- What the innermost loop says comes next has more steps behind, too. -/
theorem close (longer : Longer behind r.frames [] r'.frames steps') (alike : r.Alike r')
    (closed : r.close = .proceed next) :
    steps' = [] ∧ ∃ next', r'.close = .proceed next' ∧ next.Longer behind next' := by
  unfold Resumption.close at closed ⊢
  generalize r.frames = frames at longer closed
  generalize r'.frames = frames' at longer
  cases longer with
  | here _ _ => cases closed
  | @inside f outer _ outer' after _ body outside =>
    refine ⟨rfl, ?_⟩
    simp only at closed ⊢
    split at closed <;> cases closed
    · rename_i more
      rw [if_pos more]
      exact ⟨_, rfl, alike.proceed, rfl, rfl, .inside body body outside⟩
    · rename_i last
      rw [if_neg last]
      exact ⟨_, rfl, alike.proceed, rfl, rfl, outside⟩

end Longer

/-- What is played with more steps behind: the same failure, the end or a rest instead of the end,
or the same wait for a time, with more steps behind what is scheduled. -/
inductive Prolongs (rig : Rig σ) (behind : List Step) :
    Result → Session σ → Result → Session σ → Prop
  | failed {e} {s : Session σ} : Prolongs rig behind (.error e) s (.error e) s
  | finished {outcome} {s : Session σ} : Prolongs rig behind (.ok .finished) s (.ok outcome) s
  | timed {s : Session σ} {r r' : Resumption} {span} (longer : r.Longer behind r') :
      Prolongs rig behind (.ok .suspended) (s.suspend rig r span) (.ok .suspended)
        (s.suspend rig r' span)

/-- A session says what has been scheduled last. -/
theorem Session.suspend_inj {rig : Rig σ} {s₁ s₂ : Session σ} {r₁ r₂ : Resumption}
    {span₁ span₂ : Time} (h : s₁.suspend rig r₁ span₁ = s₂.suspend rig r₂ span₂) :
    r₁ = r₂ ∧ ∀ r, s₁.suspend rig r span₁ = s₂.suspend rig r span₂ := by
  obtain ⟨host₁, library₁, ⟨issued₁, waiting₁⟩, waits₁⟩ := s₁
  obtain ⟨host₂, library₂, ⟨issued₂, waiting₂⟩, waits₂⟩ := s₂
  simp only [suspend, Timetable.scheduleAfter, Timetable.schedule, mk.injEq, Timetable.mk.injEq,
    Nat.add_right_cancel_iff] at h
  obtain ⟨rfl, rfl, ⟨rfl, hwaiting⟩, rfl⟩ := h
  obtain ⟨rfl, hentry⟩ := List.append_inj' hwaiting rfl
  simp only [List.cons.injEq, TimetableEntry.mk.injEq, true_and, and_true] at hentry
  obtain ⟨hdeadline, rfl⟩ := hentry
  exact ⟨rfl, fun r => by
    simp only [suspend, Timetable.scheduleAfter, Timetable.schedule, hdeadline]⟩

/-- What is scheduled has more steps behind. -/
theorem Prolongs.suspended {rig : Rig σ} {behind : List Step} {s s' : Session σ} {r : Resumption}
    {span : Time} {result : Result}
    (h : Prolongs rig behind (.ok .suspended) (s.suspend rig r span) result s') :
    result = .ok .suspended ∧ ∃ r', r.Longer behind r' ∧ s' = s.suspend rig r' span := by
  generalize hs : s.suspend rig r span = s₁ at h
  cases h with
  | timed longer =>
    obtain ⟨rfl, hsame⟩ := Session.suspend_inj hs
    exact ⟨rfl, _, longer, (hsame _).symm⟩

/-- **What is played with more steps behind.** By induction on what is played without them: step by
step it is the same with them, up to where the pass and the loops around it have come to their end.
-/
theorem Plays.prolonged {rig : Rig σ} {behind : List Step} (halt : Halt behind) {a : Activity}
    {s s' : Session σ} {events : List Event} {result : Result}
    (h : Plays rig a s events result s') : ∀ {a'}, a.Longer behind a' →
      ∃ events' result' s'', Plays rig a' s events' result' s'' ∧
        Prolongs rig behind result s' result' s'' := by
  induction h with
  | tooDeep deep =>
    rintro _ ⟨longer⟩
    exact ⟨_, _, _, .tooDeep (by rwa [longer.alike.depth]), .failed⟩
  | gone shallow missing =>
    rintro _ ⟨longer⟩
    refine ⟨_, _, _, .gone (by rwa [longer.alike.depth]) ?_, .finished⟩
    rwa [longer.alike.collection, longer.alike.actionId]
  | @pass r s action _ _ _ shallow found _ ih =>
    rintro _ ⟨longer⟩
    rename_i r'
    have alike := longer.alike
    have hleg : Leg.Alike ⟨r, action.grouping, r.surface.getD (rig.host.ambient s.host)⟩
        ⟨r', action.grouping, r'.surface.getD (rig.host.ambient s.host)⟩ :=
      ⟨alike, rfl, by rw [alike.surface]⟩
    obtain ⟨_, _, _, hplays, hprolongs⟩ := ih (.walk hleg longer.longer)
    have hannounce : s.announce r = s.announce r' := by
      rw [Session.announce_of_not_fresh longer.stale, Session.announce_of_not_fresh longer.stale']
    rw [hannounce] at hplays
    refine ⟨_, _, _, .pass (by rwa [alike.depth]) ?_ hplays, hprolongs⟩
    rwa [alike.collection, alike.actionId]
  | finish closed =>
    rintro _ (_ | ⟨alike, longer⟩)
    obtain ⟨hclosed, rfl⟩ := longer.finish closed
    cases halt with
    | ended => exact ⟨_, _, _, .finish hclosed, .finished⟩
    | rests renders =>
      exact ⟨_, _, _, .awaitRender (Step.reads_of_awaitsRender renders), .finished⟩
  | close closed _ ih =>
    rintro _ (_ | ⟨alike, longer⟩)
    obtain ⟨rfl, next', hclosed, hnext⟩ := longer.close alike.source closed
    obtain ⟨_, _, _, hplays, hprolongs⟩ := ih (.drive hnext)
    exact ⟨_, _, _, .close hclosed hplays, hprolongs⟩
  | act effect done _ ih =>
    rintro _ (_ | ⟨alike, longer⟩)
    obtain ⟨steps', rfl, hlonger⟩ := longer.cons
    obtain ⟨_, _, _, hplays, hprolongs⟩ := ih (.walk alike hlonger)
    rw [← alike.grouping, ← alike.base] at effect
    exact ⟨_, _, _, .act effect done hplays, hprolongs⟩
  | fail effect failed =>
    rintro _ (_ | ⟨alike, longer⟩)
    obtain ⟨steps', rfl, -⟩ := longer.cons
    rw [← alike.grouping, ← alike.base] at effect
    rw [← alike.source.alert]
    exact ⟨_, _, _, .fail effect failed, .failed⟩
  | @awaitRender p step steps s reads =>
    rintro _ (_ | ⟨alike, longer⟩)
    have := longer.plain step List.mem_cons_self
    simp [Step.awaitsRender, reads] at this
  | wait reads =>
    rintro _ (_ | ⟨alike, longer⟩)
    obtain ⟨steps', rfl, hlonger⟩ := longer.cons
    have hsource := alike.source
    exact ⟨_, _, _, .wait reads, .timed ⟨⟨hsource.collection, hsource.actionId,
      congrArg some alike.base, hsource.depth⟩, rfl, rfl, hlonger⟩⟩
  | loopEnd reads _ ih =>
    rintro _ (_ | ⟨alike, longer⟩)
    obtain ⟨steps', rfl, hlonger⟩ := longer.cons
    obtain ⟨_, _, _, hplays, hprolongs⟩ := ih (.walk alike hlonger)
    exact ⟨_, _, _, .loopEnd reads hplays, hprolongs⟩
  | unmatched reads closing _ ih =>
    rintro _ (_ | ⟨alike, longer⟩)
    obtain ⟨steps', rfl, hlonger⟩ := longer.cons
    obtain ⟨_, _, _, hplays, hprolongs⟩ := ih (.walk alike hlonger)
    have hclosing := longer.unmatched (Step.bracket_of_loop reads) closing
    exact ⟨_, _, _, .unmatched reads hclosing hplays, hprolongs⟩
  | badLoop reads closing repeats =>
    rintro _ (_ | ⟨alike, longer⟩)
    obtain ⟨steps', rfl, hlonger⟩ := longer.cons
    rw [← alike.source.alert]
    exact ⟨_, _, _, .badLoop reads (hlonger.closing closing) repeats, .failed⟩
  | @enter p step steps s l place count _ _ _ reads closing repeats positive _ ih =>
    rintro _ (_ | ⟨alike, longer⟩)
    obtain ⟨steps', rfl, hlonger⟩ := longer.cons
    have hplace := Nat.le_of_lt (Step.lt_of_closing? closing)
    obtain ⟨_, _, _, hplays, hprolongs⟩ :=
      ih (.drive ⟨alike.source.proceed, rfl, rfl, hlonger.enter closing count⟩)
    rw [← hlonger.take hplace] at hplays
    exact ⟨_, _, _, .enter reads (hlonger.closing closing) repeats positive hplays, hprolongs⟩
  | skip reads closing repeats nought _ ih =>
    rintro _ (_ | ⟨alike, longer⟩)
    obtain ⟨steps', rfl, hlonger⟩ := longer.cons
    obtain ⟨_, _, _, hplays, hprolongs⟩ :=
      ih (.walk alike (hlonger.drop (Step.lt_of_closing? closing)))
    exact ⟨_, _, _, .skip reads (hlonger.closing closing) repeats nought hplays, hprolongs⟩
  | badRange reads closing repeats counts =>
    rintro _ (_ | ⟨alike, longer⟩)
    obtain ⟨steps', rfl, hlonger⟩ := longer.cons
    rw [← alike.source.alert]
    exact ⟨_, _, _, .badRange reads (hlonger.closing closing) repeats counts, .failed⟩
  | range reads closing repeats counts _ ih =>
    rintro _ (_ | ⟨alike, longer⟩)
    obtain ⟨steps', rfl, hlonger⟩ := longer.cons
    obtain ⟨_, _, _, hplays, hprolongs⟩ :=
      ih (.loop alike (hlonger.drop (Step.lt_of_closing? closing)))
    rw [← hlonger.take (Nat.le_of_lt (Step.lt_of_closing? closing))] at hplays
    exact ⟨_, _, _, .range reads (hlonger.closing closing) repeats counts hplays, hprolongs⟩
  | whileTrue reads closing repeats _ ih =>
    rintro _ (_ | ⟨alike, longer⟩)
    obtain ⟨steps', rfl, hlonger⟩ := longer.cons
    obtain ⟨_, _, _, hplays, hprolongs⟩ :=
      ih (.loop alike (hlonger.drop (Step.lt_of_closing? closing)))
    rw [← hlonger.take (Nat.le_of_lt (Step.lt_of_closing? closing))] at hplays
    exact ⟨_, _, _, .whileTrue reads (hlonger.closing closing) repeats hplays, hprolongs⟩
  | noneLeft _ ih =>
    rintro _ (_ | _ | ⟨alike, longer⟩)
    obtain ⟨_, _, _, hplays, hprolongs⟩ := ih (.walk alike longer)
    exact ⟨_, _, _, .noneLeft hplays, hprolongs⟩
  | nextRound _ ih =>
    rintro _ (_ | _ | ⟨alike, longer⟩)
    obtain ⟨_, _, _, hplays, hprolongs⟩ := ih (.round alike longer)
    exact ⟨_, _, _, .nextRound hplays, hprolongs⟩
  | enough holds _ ih =>
    rintro _ (_ | _ | ⟨alike, longer⟩)
    obtain ⟨_, _, _, hplays, hprolongs⟩ := ih (.walk alike longer)
    exact ⟨_, _, _, .enough holds hplays, hprolongs⟩
  | again holds _ ih =>
    rintro _ (_ | _ | ⟨alike, longer⟩)
    obtain ⟨_, _, _, hplays, hprolongs⟩ := ih (.round alike longer)
    exact ⟨_, _, _, .again holds hplays, hprolongs⟩
  | unknown holds =>
    rintro _ (_ | _ | ⟨alike, longer⟩)
    rw [← alike.source.alert]
    exact ⟨_, _, _, .unknown holds, .failed⟩
  | roundTooDeep deep =>
    rintro _ (_ | _ | _ | ⟨alike, longer⟩)
    rw [← alike.source.depth] at deep
    rw [← alike.source.alert]
    exact ⟨_, _, _, .roundTooDeep deep, .failed⟩
  | roundFailed shallow inside _ =>
    rintro _ (_ | _ | _ | ⟨alike, longer⟩)
    rw [← alike.source.depth] at shallow
    rw [← alike.source.nested] at inside
    exact ⟨_, _, _, .roundFailed shallow inside, .failed⟩
  | roundDone shallow inside _ _ ih =>
    rintro _ (_ | _ | _ | ⟨alike, longer⟩)
    obtain ⟨_, _, _, hplays, hprolongs⟩ := ih (.loop alike longer)
    rw [← alike.source.depth] at shallow
    rw [← alike.source.nested] at inside
    exact ⟨_, _, _, .roundDone shallow inside hplays, hprolongs⟩

end Replay
