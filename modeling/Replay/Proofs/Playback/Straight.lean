import Replay.Proofs.Playback.LoopBodies
import Replay.Proofs.Playback.Relay

/-!
# Straight on

A wait for a render in the body of a counted loop ends the loop: playback goes on behind the wait,
and passes over the end of the loop when it comes to it. An action whose loops are all of that kind
is played straight on, each step once and in the order in which it stands in the list.

* `Straight` — every loop is entered and left by a wait for a render
* `Plays.strides` — a turn comes to the next of the steps that are ahead
* `Relay.straight` — what the turns of such an action hand on
-/

set_option autoImplicit false

namespace Replay

variable {σ : Type}

/-! ## The steps ahead -/

/-- A loop that is entered, and whose body has a wait for a render. -/
structure MeetsRender (l : Loop) (body : List Step) : Prop where
  enters : ∃ count, l.repetition = .ok (.times count) ∧ 0 < count
  waits : ∃ step ∈ body, step.awaitsRender = true

/-- Every loop is entered, and its body has a wait for a render. -/
def Straight (steps : List Step) : Prop := EachLoop MeetsRender steps

/-- The steps that are ahead of a pass inside some counted loops: its own, the end of the innermost
loop, and what is ahead behind that. -/
inductive Ahead : List Frame → List Step → List Step → Prop
  | here {steps} : Ahead [] steps steps
  | inside {f outer steps closing left} (closes : closing.bracket = .closes)
      (behind : Ahead outer f.after left) : Ahead (f :: outer) steps (steps ++ closing :: left)

/-- What is ahead of the body of a loop is what is ahead of the loop. -/
theorem Ahead.enter {frames : List Frame} {body after left : List Step} {closing : Step}
    (closes : closing.bracket = .closes) (count : Int)
    (h : Ahead frames (body ++ closing :: after) left) :
    Ahead (⟨body, count, after⟩ :: frames) body left := by
  cases h with
  | here => exact .inside closes .here
  | inside closes' behind =>
    rw [List.append_assoc, List.cons_append]
    exact .inside closes (.inside closes' behind)

/-- The steps that are ahead of a pass which comes to a wait for a render before it comes to the end
of the loop that it is in. -/
structure Headed (frames : List Frame) (steps left : List Step) : Prop where
  ahead : Ahead frames steps left
  straight : Straight steps
  meets : frames = [] ∨ ∃ step ∈ steps, step.awaitsRender = true

namespace Headed

variable {frames : List Frame} {step : Step} {steps left : List Step}

theorem cons (h : Headed frames (step :: steps) left) :
    ∃ left', left = step :: left' ∧ Ahead frames steps left' := by
  cases h.ahead with
  | here => exact ⟨_, rfl, .here⟩
  | inside closes behind => exact ⟨_, rfl, .inside closes behind⟩

/-- A step that does not wait for a render is passed over. -/
theorem tail (h : Headed frames (step :: steps) left) (plain : step.awaitsRender = false) :
    ∃ left', left = step :: left' ∧ Headed frames steps left' := by
  obtain ⟨left', rfl, hahead⟩ := h.cons
  refine ⟨left', rfl, hahead, h.straight.within (Step.drop_within step steps 0), ?_⟩
  refine h.meets.imp_right ?_
  rintro ⟨wait, hwait, hrender⟩
  rcases List.mem_cons.mp hwait with rfl | hbehind
  · simp [hrender] at plain
  · exact ⟨wait, hbehind, hrender⟩

/-- Nothing is ahead of a pass that has come to its end. -/
theorem at_end (h : Headed frames [] left) : frames = [] ∧ left = [] := by
  have hframes : frames = [] := h.meets.resolve_right nofun
  have hahead := h.ahead
  rw [hframes] at hahead
  cases hahead
  exact ⟨hframes, rfl⟩

/-- A loop is entered. -/
theorem enter (h : Headed frames (step :: steps) left) {l : Loop} {place : Nat} (count : Int)
    (reads : step.instruction = .ok (.directive (.loop l)))
    (closing : Step.closing? steps = some place) :
    ∃ left', left = step :: left' ∧
      Headed (⟨steps.take place, count, steps.drop (place + 1)⟩ :: frames) (steps.take place)
        left' := by
  obtain ⟨left', rfl, hahead⟩ := h.cons
  obtain ⟨closing', hcloses, hsplit⟩ := Step.closing?_split closing
  rw [hsplit] at hahead
  have hbody := h.straight.within (Step.take_within step steps place)
  exact ⟨left', rfl, hahead.enter hcloses count, hbody, .inr (h.straight.first reads closing).waits⟩

end Headed

/-! ## What a turn comes to -/

/-- A resumption goes on where another one has stopped, with some steps ahead. -/
structure Resumption.Continues (r next : Resumption) (left : List Step) : Prop where
  collection : next.collection = r.collection
  actionId : next.actionId = r.actionId
  depth : next.depth = r.depth
  stale : next.fresh = false
  headed : Headed next.frames next.steps left

/-- **What a turn comes to of the steps that are ahead.** It comes to them one after the other, up
to a failure, a wait for a render, a wait for a time, or the end. -/
inductive Strides (r : Resumption) (t : Timetable Resumption) :
    List Step → List Step → Result → Timetable Resumption → Prop
  | finished (run) (plain : ∀ step ∈ run, step.awaitsRender = false) :
      Strides r t run run (.ok .finished) t
  | failed (run left) {e} (plain : ∀ step ∈ run, step.awaitsRender = false) :
      Strides r t (run ++ left) run (.error e) t
  | rendered (run) {wait} (left) (plain : ∀ step ∈ run, step.awaitsRender = false)
      (renders : wait.awaitsRender = true) :
      Strides r t (run ++ wait :: left) (run ++ [wait]) (.ok .suspended) t
  | timed (run) {timer} (left) {entry} (plain : ∀ step ∈ run, step.awaitsRender = false)
      (silent : timer.awaitsRender = false) (continues : r.Continues entry.payload left)
      (within : (∀ step ∈ run, step.bracket ≠ .opens) → entry.payload.frames = r.frames) :
      Strides r t (run ++ timer :: left) (run ++ [timer]) (.ok .suspended) (t.extended [entry])

/-- A step that does not wait for a render comes first. -/
theorem Strides.cons {r r' : Resumption} {t t' : Timetable Resumption} {left run : List Step}
    {result : Result} (h : Strides r' t left run result t') {step : Step}
    (plain : step.awaitsRender = false) (collection : r'.collection = r.collection)
    (actionId : r'.actionId = r.actionId) (depth : r'.depth = r.depth)
    (frames : step.bracket ≠ .opens → r'.frames = r.frames) :
    Strides r t (step :: left) (step :: run) result t' := by
  cases h with
  | finished run hrun => exact .finished _ (List.forall_mem_cons.mpr ⟨plain, hrun⟩)
  | failed run left hrun =>
    exact .failed (step :: run) left (List.forall_mem_cons.mpr ⟨plain, hrun⟩)
  | rendered run left hrun renders =>
    exact .rendered (step :: run) left (List.forall_mem_cons.mpr ⟨plain, hrun⟩) renders
  | timed run left hrun silent continues within =>
    refine .timed (step :: run) left (List.forall_mem_cons.mpr ⟨plain, hrun⟩) silent
      ⟨continues.collection.trans collection, continues.actionId.trans actionId,
        continues.depth.trans depth, continues.stale, continues.headed⟩ fun flat => ?_
    obtain ⟨hstep, hflat⟩ := List.forall_mem_cons.mp flat
    exact (within hflat).trans (frames hstep)

/-- The steps that are ahead of an activity outside the bodies of conditional and range loops. -/
def Activity.Headed (left : List Step) : Activity → Prop
  | drive r => Replay.Headed r.frames r.steps left
  | walk p steps => Replay.Headed p.source.frames steps left
  | loop _ _ _ _ _ | round _ _ _ _ _ => False

theorem Step.not_awaitsRender_of_loop {step : Step} {l : Loop}
    (reads : step.instruction = .ok (.directive (.loop l))) : step.awaitsRender = false := by
  simp [awaitsRender, reads]

/-- **A turn comes to the next of the steps that are ahead.** -/
theorem Plays.strides {rig : Rig σ} {a : Activity} {s s' : Session σ} {events : List Event}
    {result : Result} (h : Plays rig a s events result s') :
    ∀ {left}, a.Headed left →
      (∃ action, s.library.action? a.source.collection a.source.actionId = some action) →
      Strides a.source s.timetable left (events.map Event.step) result s'.timetable := by
  induction h with
  | tooDeep _ => exact fun _ _ => .failed [] _ nofun
  | gone _ missing =>
    rintro left _ ⟨action, found⟩
    cases missing.symm.trans found
  | pass _ _ _ ih =>
    intro left headed found
    have := ih headed (by rwa [Session.announce_library])
    rwa [Session.announce_timetable] at this
  | finish closed =>
    intro left headed _
    obtain ⟨-, rfl⟩ := headed.at_end
    exact .finished [] nofun
  | close closed _ ih =>
    intro left headed _
    obtain ⟨hframes, -⟩ := headed.at_end
    rw [Resumption.close, hframes] at closed
    cases closed
  | act effect _ _ ih =>
    intro left headed found
    have hplain := (Step.effect?_not_waits effect).2
    obtain ⟨left', rfl, hheaded⟩ := headed.tail hplain
    exact (ih hheaded found).cons hplain rfl rfl rfl fun _ => rfl
  | fail effect failed =>
    intro left headed _
    obtain ⟨left', rfl, -⟩ := headed.cons
    exact .failed [_] left' (List.forall_mem_singleton.mpr (Step.effect?_not_waits effect).2)
  | awaitRender reads =>
    intro left headed _
    obtain ⟨left', rfl, -⟩ := headed.cons
    exact .rendered [] left' nofun (by simp [Step.awaitsRender, reads])
  | @wait p step steps s t reads =>
    intro left headed _
    have hplain : step.awaitsRender = false := by simp [Step.awaitsRender, reads]
    obtain ⟨left', rfl, hheaded⟩ := headed.tail hplain
    exact .timed [] left' nofun hplain ⟨rfl, rfl, rfl, rfl, hheaded⟩ fun _ => rfl
  | @loopEnd p step steps s events result s' reads _ ih =>
    intro left headed found
    have hplain : step.awaitsRender = false := by simp [Step.awaitsRender, reads]
    obtain ⟨left', rfl, hheaded⟩ := headed.tail hplain
    exact (ih hheaded found).cons hplain rfl rfl rfl fun _ => rfl
  | unmatched reads closing _ ih =>
    intro left headed found
    have hplain := Step.not_awaitsRender_of_loop reads
    obtain ⟨left', rfl, hheaded⟩ := headed.tail hplain
    exact (ih hheaded found).cons hplain rfl rfl rfl fun _ => rfl
  | enter reads closing repeats positive _ ih =>
    intro left headed found
    obtain ⟨left', rfl, hheaded⟩ := headed.enter _ reads closing
    exact (ih hheaded found).cons (Step.not_awaitsRender_of_loop reads) rfl rfl rfl
      fun flat => absurd (Step.bracket_of_loop reads) flat
  -- the loops that are left over are not entered, or not counted
  | skip reads closing repeats nought _ _ =>
    intro left headed _
    obtain ⟨count, hrepeats, hpositive⟩ := (headed.straight.first reads closing).enters
    cases repeats.symm.trans hrepeats
    exact absurd hpositive nought
  | badLoop reads closing repeats | badRange reads closing repeats _
  | range reads closing repeats _ _ _ | whileTrue reads closing repeats _ _ =>
    intro left headed _
    obtain ⟨count, hrepeats, -⟩ := (headed.straight.first reads closing).enters
    cases repeats.symm.trans hrepeats
  | noneLeft _ _ | nextRound _ _ | enough _ _ _ | again _ _ _ | unknown _ | roundTooDeep _
  | roundFailed _ _ _ | roundDone _ _ _ _ _ => exact fun headed => headed.elim

/-- **A turn comes to an end.** -/
theorem Headed.exists_plays {rig : Rig σ} (n : Nat) : ∀ {p : Leg} {steps left : List Step}
    {s : Session σ}, steps.length = n → Headed p.source.frames steps left →
    p.source.depth ≤ rig.settings.maxNesting →
    (∃ action, s.library.action? p.source.collection p.source.actionId = some action) →
    ∃ events result s', Plays rig (.walk p steps) s events result s' := by
  induction n using Nat.strongRecOn with
  | ind n ih =>
    rintro p (_ | ⟨step, rest⟩) left s rfl headed shallow found
    · have hclose : p.source.close = .finished := by
        rw [Resumption.close, headed.at_end.1]
      exact ⟨_, _, _, .finish hclose⟩
    · -- the rest of the pass, behind a step that changes nothing but the host
      have tail : step.awaitsRender = false → ∀ host, ∃ events result s',
          Plays rig (.walk p rest) { s with host := host } events result s' := by
        intro hplain host
        obtain ⟨left', rfl, hheaded⟩ := headed.tail hplain
        exact ih rest.length (Nat.lt_succ_self _) rfl hheaded shallow found
      obtain ⟨f, hf⟩ | hi | ⟨t, hi⟩ | hi | ⟨l, hi⟩ :=
        step.effect?_cases rig.host p.grouping p.base
      · cases heffect : f s.host with
        | mk result host =>
          cases result with
          | error e => exact ⟨_, _, _, .fail hf heffect⟩
          | ok _ =>
            obtain ⟨events, result, s', hplays⟩ := tail (Step.effect?_not_waits hf).2 host
            exact ⟨_, _, _, .act hf heffect hplays⟩
      · exact ⟨_, _, _, .awaitRender hi⟩
      · exact ⟨_, _, _, .wait hi⟩
      · obtain ⟨events, result, s', hplays⟩ := tail (by simp [Step.awaitsRender, hi]) s.host
        exact ⟨_, _, _, .loopEnd hi hplays⟩
      · cases hclosing : Step.closing? rest with
        | none =>
          obtain ⟨events, result, s', hplays⟩ := tail (Step.not_awaitsRender_of_loop hi) s.host
          exact ⟨_, _, _, .unmatched hi hclosing hplays⟩
        | some place =>
          obtain ⟨count, hrepeats, hpositive⟩ := (headed.straight.first hi hclosing).enters
          obtain ⟨left', rfl, hheaded⟩ := headed.enter count hi hclosing
          obtain ⟨action, hfound⟩ := found
          have hshorter : (rest.take place).length < (step :: rest).length :=
            Nat.lt_succ_of_le (List.length_take_le' place rest)
          let r := p.entering count (rest.take place) (rest.drop (place + 1))
          obtain ⟨events, result, s', hplays⟩ := ih _ hshorter (p := ⟨r, action.grouping,
            r.surface.getD (rig.host.ambient s.host)⟩) (s := s.announce r) rfl hheaded shallow
            ⟨action, by rwa [Session.announce_library]⟩
          exact ⟨_, _, _, .enter hi hclosing hrepeats hpositive (.pass shallow hfound hplays)⟩

/-! ## The relay of an action that is played straight on -/

/-- What the turns of an action that is played straight on hand on: the steps that have been come to
and those that are ahead are the steps of the action. -/
def Relay.straight (k : Solo σ) (straight : Straight k.steps) : Relay k where
  Runs n r _ rest trace := ∃ left, n = left.length + 1 ∧ trace ++ left = k.steps ∧
    rest = Step.beyondRender left ∧ Headed r.frames r.steps left ∧ (r.fresh = true → left = r.steps)
  Rests n _ rest trace := n = rest.length + 1 ∧ trace ++ rest = k.steps
  Fails trace := trace <+: k.steps
  ends := by
    rintro n r host rest trace s ⟨left, -, -, -, hheaded, -⟩ owns library -
    exact hheaded.exists_plays _ rfl owns.shallow ⟨_, owns.found library⟩
  turn := by
    rintro n r host rest trace s events result s' ⟨left, rfl, htrace, rfl, hheaded, -⟩ owns
      library - hplays
    have hstrides := hplays.strides hheaded ⟨_, owns.found library⟩
    generalize ht : s'.timetable = t' at hstrides
    generalize events.map Event.step = run at hstrides ⊢
    cases hstrides with
    | finished run plain =>
      rw [Step.beyondRender_of_none plain]
      exact .rested (by simp) ⟨rfl, by simpa using htrace⟩ ht
    | failed run left plain => exact .failed ⟨left, by simpa using htrace⟩ ht
    | @rendered run wait left plain renders =>
      rw [Step.beyondRender_append plain, Step.beyondRender_cons renders]
      refine .rested (fun _ => ?_) ⟨rfl, by simpa using htrace⟩ ht
      simp only [List.length_append, List.length_cons]
      omega
    | @timed run timer left entry plain silent continues _ =>
      have hbeyond : Step.beyondRender (run ++ timer :: left) = Step.beyondRender left := by
        rw [Step.beyondRender_append plain, Step.beyondRender, if_neg (by simp [silent])]
      rw [hbeyond]
      refine .scheduled (m := left.length + 1) ?_ ⟨continues.collection.trans owns.collection,
        continues.actionId.trans owns.actionId, continues.depth ▸ owns.shallow⟩ continues.stale
        ⟨left, rfl, by simpa using htrace, rfl, continues.headed, ?_⟩ ht
      · simp only [List.length_append, List.length_cons]
        omega
      · simp [continues.stale]
  fresh := by
    rintro n r host rest trace ⟨left, -, -, rfl, -, hleft⟩ hfresh
    rw [hleft hfresh]
  release := by
    rintro n host step rest trace ⟨rfl, htrace⟩
    have hsuffix : step :: rest <:+ k.steps := ⟨trace, htrace⟩
    have hself := Solo.start_of_suffix hsuffix
    refine ⟨hsuffix, step :: rest, rfl, htrace, rfl, ⟨?_, ?_, .inl rfl⟩, fun _ => hself.symm⟩
    · rw [hself]
      exact .here
    · rw [hself]
      exact straight.within hsuffix.isInfix

/-- The beginning of an action that is played straight on. -/
theorem Relay.straight_runs (k : Solo σ) (straight : Straight k.steps) (host : σ) :
    (Relay.straight k straight).Runs (k.steps.length + 1) (k.start k.action.steps) host
      (Step.beyondRender k.steps) [] :=
  ⟨k.steps, rfl, rfl, rfl, ⟨.here, straight, .inl rfl⟩, fun _ => rfl⟩

section Straight

variable {k : Solo σ} {straight : Straight k.steps} {n : Nat} {takes : List Take} {s : Session σ}

/-- The steps come to so far are the first of the action. -/
theorem Relay.Underway.steps_prefix (h : (Relay.straight k straight).Underway n takes s) :
    Take.allSteps takes <+: k.steps := by
  cases h with
  | scheduled _ _ _ _ runs _ =>
    obtain ⟨left, -, htrace, -⟩ := runs
    exact ⟨left, htrace⟩
  | @rested rest _ _ _ _ _ rests _ => exact ⟨rest, rests.2⟩
  | failed _ _ _ stopped => exact stopped

/-- Without a failure, and with nothing scheduled or queued, they are all of them. -/
theorem Relay.Underway.steps_eq (h : (Relay.straight k straight).Underway n takes s)
    (sound : ∀ t ∈ takes, t.fails = false) (idle : s.pending = 0) (waits : s.waits = []) :
    Take.allSteps takes = k.steps := by
  cases h with
  | scheduled _ _ waiting _ _ _ => simp [Session.pending_of_waiting waiting] at idle
  | @rested rest _ _ _ _ _ rests queued =>
    cases rest with
    | nil => simpa using rests.2
    | cons step rest => simp [queued, Solo.queue] at waits
  | failed _ fails _ _ => simp [sound _ List.mem_concat_self] at fails

end Straight

end Replay
