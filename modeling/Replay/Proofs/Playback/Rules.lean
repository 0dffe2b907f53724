import Replay.Proofs.Playback.Budget

/-!
# The rules of playback

A call of the player is a tree of passes: a pass walks its steps, plays the bodies of conditional
and range loops on its way, and hands on to the next pass. `Plays` states what may happen in it as
rules, one for each thing that a pass can come to, and lists on the way what it comes to. The rules
have no budget: a derivation is a call that ends. `Comes` keeps of them what is needed to say what a
call comes to before it ends, or without ever ending.

What a call does is proved once for each rule, by induction on derivations.
-/

set_option autoImplicit false

namespace Replay

variable {σ : Type}

/-! ## What passes come to -/

/-- What can be seen of a call while it runs. -/
inductive Event
  /-- A pass, so many loop bodies deep, comes to a step. -/
  | reached (depth : Nat) (step : Step)
  /-- The host is asked for the condition of the loop that a step opens. -/
  | asked (depth : Nat) (opening : Step)
deriving DecidableEq, Repr

namespace Event

/-- How many loop bodies deep an event happens. -/
def depth : Event → Nat
  | reached d _ => d
  | asked d _ => d

end Event

namespace Step

/-- What a step does to the host at once. A step that cannot be read fails; waits and the two ends of
a loop do nothing of the kind. -/
def effect? (h : Host σ) (g : Grouping) (base : Surface) (step : Step) :
    Option (σ → Except PlayError Unit × σ) :=
  match step.instruction with
  | .error cause => some fun s => (.error (.malformedDirective step.text cause), s)
  | .ok (.directive (.select selection)) => some (h.makeSelection selection)
  | .ok (.directive (.script source)) => some (h.playScript step.id source)
  | .ok (.plain command) => some (h.playCommand g base step command)
  | _ => none

/-- A step has an effect, or it is one of the two waits or one of the two ends of a loop. -/
theorem effect?_cases (h : Host σ) (g : Grouping) (base : Surface) (step : Step) :
    (∃ f, step.effect? h g base = some f) ∨ step.instruction = .ok (.directive .awaitRender) ∨
      (∃ t, step.instruction = .ok (.directive (.wait t))) ∨
      step.instruction = .ok (.directive .loopEnd) ∨
      ∃ l, step.instruction = .ok (.directive (.loop l)) := by
  unfold effect?
  cases hi : step.instruction with
  | error cause => exact .inl ⟨_, rfl⟩
  | ok i =>
    cases i with
    | plain command => exact .inl ⟨_, rfl⟩
    | directive d => cases d <;> simp

/-- Whether a step waits for a time. -/
def isTimer (step : Step) : Bool :=
  match step.instruction with
  | .ok (.directive (.wait _)) => true
  | _ => false

theorem effect?_not_waits {step : Step} {h : Host σ} {g : Grouping} {base : Surface}
    {f : σ → Except PlayError Unit × σ} (hf : step.effect? h g base = some f) :
    step.isTimer = false ∧ step.awaitsRender = false := by
  unfold effect? at hf
  unfold isTimer awaitsRender
  split at hf <;> simp_all

end Step

/-- What follows a pass differs from it in its steps and frames only. -/
theorem Resumption.eq_proceed {r next : Resumption} (h : r.close = .proceed next) :
    ∃ steps frames, next = r.proceed steps frames := by
  unfold close at h
  split at h
  · cases h
  · split at h <;> cases h <;> exact ⟨_, _, rfl⟩

/-! ## The rules -/

/-- What stays the same during one pass: the resumption it is of, and how and where its commands
run. -/
structure Leg where
  source : Resumption
  grouping : Grouping
  base : Surface

namespace Leg

/-- The pass of a leg within a budget. -/
def pass (p : Leg) (rig : Rig σ) (budget : Nat) : Pass σ :=
  ⟨rig, p.source, p.grouping, p.base, budget, Resumption.drive rig budget⟩

/-- The resumption behind a step that suspends playback for a time. -/
def behind (p : Leg) (rest : List Step) : Resumption :=
  { p.source.proceed rest p.source.frames with surface := some p.base }

/-- The resumption that enters a counted loop. -/
def entering (p : Leg) (count : Int) (body after : List Step) : Resumption :=
  p.source.proceed body (⟨body, count, after⟩ :: p.source.frames)

end Leg

/-- How a loop that is played inside a pass goes on. -/
inductive Recurrence
  /-- For a number of rounds. -/
  | times (left : Nat)
  /-- For as long as a condition holds. -/
  | whileTrue (condition : String)
deriving DecidableEq, Repr

/-- What is under way in a call. -/
inductive Activity
  /-- A resumption, from its first pass on. -/
  | drive (r : Resumption)
  /-- The rest of a pass, and the passes behind it. -/
  | walk (p : Leg) (steps : List Step)
  /-- A loop about to begin a round or to end, and the steps behind it. -/
  | loop (p : Leg) (opening : Step) (body behind : List Step) (again : Recurrence)
  /-- A round of a loop, and how the loop goes on after it. -/
  | round (p : Leg) (opening : Step) (body behind : List Step) (again : Recurrence)

namespace Activity

/-- How many loop bodies deep an activity is. -/
def depth : Activity → Nat
  | drive r => r.depth
  | walk p _ | loop p _ _ _ _ | round p _ _ _ _ => p.source.depth

end Activity

/-- How a call ends, and the failure it ends with, if any. -/
abbrev Result := Except PlayError Outcome

/-- **The rules of playback.** `Plays rig a s events result s'`: what is under way in a session comes
to these events, ends with this result and leaves that session. -/
inductive Plays (rig : Rig σ) : Activity → Session σ → List Event → Result → Session σ → Prop
  | tooDeep {r s} (deep : rig.settings.maxNesting < r.depth) :
      Plays rig (.drive r) s [] (.error (.nestingTooDeep rig.settings.maxNesting)) s
  | gone {r s} (shallow : r.depth ≤ rig.settings.maxNesting)
      (missing : s.library.action? r.collection r.actionId = none) :
      Plays rig (.drive r) s [] (.ok .finished) s
  /-- A pass begins; a fresh one announces its first wait for a render. -/
  | pass {r s action events result s'} (shallow : r.depth ≤ rig.settings.maxNesting)
      (found : s.library.action? r.collection r.actionId = some action)
      (rest : Plays rig
        (.walk ⟨r, action.grouping, r.surface.getD (rig.host.ambient s.host)⟩ r.steps)
        (s.announce r) events result s') :
      Plays rig (.drive r) s events result s'
  | finish {p s} (closed : p.source.close = .finished) :
      Plays rig (.walk p []) s [] (.ok .finished) s
  /-- The innermost counted loop says what comes next. -/
  | close {p s r events result s'} (closed : p.source.close = .proceed r)
      (rest : Plays rig (.drive r) s events result s') :
      Plays rig (.walk p []) s events result s'
  | act {p step steps s f host events result s'}
      (effect : step.effect? rig.host p.grouping p.base = some f)
      (done : f s.host = (.ok (), host))
      (rest : Plays rig (.walk p steps) { s with host := host } events result s') :
      Plays rig (.walk p (step :: steps)) s (.reached p.source.depth step :: events) result s'
  | fail {p step steps s f host e}
      (effect : step.effect? rig.host p.grouping p.base = some f)
      (failed : f s.host = (.error e, host)) :
      Plays rig (.walk p (step :: steps)) s [.reached p.source.depth step] (.error e)
        (Session.alert { s with host := host } p.source step)
  | awaitRender {p step steps s} (reads : step.instruction = .ok (.directive .awaitRender)) :
      Plays rig (.walk p (step :: steps)) s [.reached p.source.depth step] (.ok .suspended) s
  | wait {p step steps s t} (reads : step.instruction = .ok (.directive (.wait t))) :
      Plays rig (.walk p (step :: steps)) s [.reached p.source.depth step] (.ok .suspended)
        (s.suspend rig (p.behind steps) (Time.ofSeconds t))
  | loopEnd {p step steps s events result s'}
      (reads : step.instruction = .ok (.directive .loopEnd))
      (rest : Plays rig (.walk p steps) s events result s') :
      Plays rig (.walk p (step :: steps)) s (.reached p.source.depth step :: events) result s'
  | unmatched {p step steps s l events result s'}
      (reads : step.instruction = .ok (.directive (.loop l)))
      (closing : Step.closing? steps = none)
      (rest : Plays rig (.walk p steps) s events result s') :
      Plays rig (.walk p (step :: steps)) s (.reached p.source.depth step :: events) result s'
  | badLoop {p step steps s l place cause}
      (reads : step.instruction = .ok (.directive (.loop l)))
      (closing : Step.closing? steps = some place) (repeats : l.repetition = .error cause) :
      Plays rig (.walk p (step :: steps)) s [.reached p.source.depth step]
        (.error (.malformedDirective step.text cause)) (s.alert p.source step)
  | enter {p step steps s l place count events result s'}
      (reads : step.instruction = .ok (.directive (.loop l)))
      (closing : Step.closing? steps = some place) (repeats : l.repetition = .ok (.times count))
      (positive : 0 < count)
      (rest : Plays rig
        (.drive (p.entering count (steps.take place) (steps.drop (place + 1)))) s events result s') :
      Plays rig (.walk p (step :: steps)) s (.reached p.source.depth step :: events) result s'
  | skip {p step steps s l place count events result s'}
      (reads : step.instruction = .ok (.directive (.loop l)))
      (closing : Step.closing? steps = some place) (repeats : l.repetition = .ok (.times count))
      (nought : ¬0 < count)
      (rest : Plays rig (.walk p (steps.drop (place + 1))) s events result s') :
      Plays rig (.walk p (step :: steps)) s (.reached p.source.depth step :: events) result s'
  | badRange {p step steps s l place start stop by'}
      (reads : step.instruction = .ok (.directive (.loop l)))
      (closing : Step.closing? steps = some place)
      (repeats : l.repetition = .ok (.range start stop by'))
      (counts : rangeCount? start stop by' = none) :
      Plays rig (.walk p (step :: steps)) s [.reached p.source.depth step]
        (.error (.invalidRange start stop by')) (s.alert p.source step)
  | range {p step steps s l place start stop by' count events result s'}
      (reads : step.instruction = .ok (.directive (.loop l)))
      (closing : Step.closing? steps = some place)
      (repeats : l.repetition = .ok (.range start stop by'))
      (counts : rangeCount? start stop by' = some count)
      (rest : Plays rig (.loop p step (steps.take place) (steps.drop (place + 1)) (.times count))
        s events result s') :
      Plays rig (.walk p (step :: steps)) s (.reached p.source.depth step :: events) result s'
  | whileTrue {p step steps s l place condition events result s'}
      (reads : step.instruction = .ok (.directive (.loop l)))
      (closing : Step.closing? steps = some place)
      (repeats : l.repetition = .ok (.whileTrue condition))
      (rest : Plays rig (.loop p step (steps.take place) (steps.drop (place + 1))
        (.whileTrue condition)) s events result s') :
      Plays rig (.walk p (step :: steps)) s (.reached p.source.depth step :: events) result s'
  | noneLeft {p opening body behind s events result s'}
      (rest : Plays rig (.walk p behind) s events result s') :
      Plays rig (.loop p opening body behind (.times 0)) s events result s'
  | nextRound {p opening body behind left s events result s'}
      (rest : Plays rig (.round p opening body behind (.times left)) s events result s') :
      Plays rig (.loop p opening body behind (.times (left + 1))) s events result s'
  | enough {p opening condition body behind s host events result s'}
      (holds : rig.host.evaluate s.host condition = (.ok false, host))
      (rest : Plays rig (.walk p behind) { s with host := host } events result s') :
      Plays rig (.loop p opening body behind (.whileTrue condition)) s
        (.asked p.source.depth opening :: events) result s'
  | again {p opening condition body behind s host events result s'}
      (holds : rig.host.evaluate s.host condition = (.ok true, host))
      (rest : Plays rig (.round p opening body behind (.whileTrue condition))
        { s with host := host } events result s') :
      Plays rig (.loop p opening body behind (.whileTrue condition)) s
        (.asked p.source.depth opening :: events) result s'
  | unknown {p opening condition body behind s host report}
      (holds : rig.host.evaluate s.host condition = (.error report, host)) :
      Plays rig (.loop p opening body behind (.whileTrue condition)) s
        [.asked p.source.depth opening] (.error (.condition condition report))
        (Session.alert { s with host := host } p.source opening)
  | roundTooDeep {p opening body behind again s}
      (deep : rig.settings.maxNesting < p.source.depth + 1) :
      Plays rig (.round p opening body behind again) s []
        (.error (.nestingTooDeep rig.settings.maxNesting)) (s.alert p.source opening)
  | roundFailed {p opening body behind again s events e s'}
      (shallow : p.source.depth + 1 ≤ rig.settings.maxNesting)
      (inside : Plays rig (.drive (p.source.nested body)) s events (.error e) s') :
      Plays rig (.round p opening body behind again) s events (.error e) s'
  /-- That the body is suspended makes no difference. -/
  | roundDone {p opening body behind again s events outcome s' events' result s''}
      (shallow : p.source.depth + 1 ≤ rig.settings.maxNesting)
      (inside : Plays rig (.drive (p.source.nested body)) s events (.ok outcome) s')
      (rest : Plays rig (.loop p opening body behind again) s' events' result s'') :
      Plays rig (.round p opening body behind again) s (events ++ events') result s''

/-! ## Calls that need not end -/

/-- What a call comes to while it runs, whether or not it ends. `Comes rig a s events`: what is under
way in a session comes to these events, one after the other, and perhaps to more. -/
inductive Comes (rig : Rig σ) : Activity → Session σ → List Event → Prop
  | nothing {a s} : Comes rig a s []
  | pass {r s action events} (shallow : r.depth ≤ rig.settings.maxNesting)
      (found : s.library.action? r.collection r.actionId = some action)
      (rest : Comes rig
        (.walk ⟨r, action.grouping, r.surface.getD (rig.host.ambient s.host)⟩ r.steps)
        (s.announce r) events) :
      Comes rig (.drive r) s events
  | close {p s r events} (closed : p.source.close = .proceed r)
      (rest : Comes rig (.drive r) s events) : Comes rig (.walk p []) s events
  /-- What the step does is still to be seen. -/
  | reached {p step steps s} :
      Comes rig (.walk p (step :: steps)) s [.reached p.source.depth step]
  | act {p step steps s f host events}
      (effect : step.effect? rig.host p.grouping p.base = some f)
      (done : f s.host = (.ok (), host))
      (rest : Comes rig (.walk p steps) { s with host := host } events) :
      Comes rig (.walk p (step :: steps)) s (.reached p.source.depth step :: events)
  | loopEnd {p step steps s events} (reads : step.instruction = .ok (.directive .loopEnd))
      (rest : Comes rig (.walk p steps) s events) :
      Comes rig (.walk p (step :: steps)) s (.reached p.source.depth step :: events)
  | unmatched {p step steps s l events} (reads : step.instruction = .ok (.directive (.loop l)))
      (closing : Step.closing? steps = none) (rest : Comes rig (.walk p steps) s events) :
      Comes rig (.walk p (step :: steps)) s (.reached p.source.depth step :: events)
  | enter {p step steps s l place count events}
      (reads : step.instruction = .ok (.directive (.loop l)))
      (closing : Step.closing? steps = some place) (repeats : l.repetition = .ok (.times count))
      (positive : 0 < count)
      (rest : Comes rig
        (.drive (p.entering count (steps.take place) (steps.drop (place + 1)))) s events) :
      Comes rig (.walk p (step :: steps)) s (.reached p.source.depth step :: events)
  | skip {p step steps s l place count events}
      (reads : step.instruction = .ok (.directive (.loop l)))
      (closing : Step.closing? steps = some place) (repeats : l.repetition = .ok (.times count))
      (nought : ¬0 < count) (rest : Comes rig (.walk p (steps.drop (place + 1))) s events) :
      Comes rig (.walk p (step :: steps)) s (.reached p.source.depth step :: events)
  | range {p step steps s l place start stop by' count events}
      (reads : step.instruction = .ok (.directive (.loop l)))
      (closing : Step.closing? steps = some place)
      (repeats : l.repetition = .ok (.range start stop by'))
      (counts : rangeCount? start stop by' = some count)
      (rest : Comes rig (.loop p step (steps.take place) (steps.drop (place + 1)) (.times count))
        s events) :
      Comes rig (.walk p (step :: steps)) s (.reached p.source.depth step :: events)
  | whileTrue {p step steps s l place condition events}
      (reads : step.instruction = .ok (.directive (.loop l)))
      (closing : Step.closing? steps = some place)
      (repeats : l.repetition = .ok (.whileTrue condition))
      (rest : Comes rig (.loop p step (steps.take place) (steps.drop (place + 1))
        (.whileTrue condition)) s events) :
      Comes rig (.walk p (step :: steps)) s (.reached p.source.depth step :: events)
  | noneLeft {p opening body behind s events} (rest : Comes rig (.walk p behind) s events) :
      Comes rig (.loop p opening body behind (.times 0)) s events
  | nextRound {p opening body behind left s events}
      (rest : Comes rig (.round p opening body behind (.times left)) s events) :
      Comes rig (.loop p opening body behind (.times (left + 1))) s events
  /-- The answer is still to be seen. -/
  | asked {p opening condition body behind s} :
      Comes rig (.loop p opening body behind (.whileTrue condition)) s
        [.asked p.source.depth opening]
  | enough {p opening condition body behind s host events}
      (holds : rig.host.evaluate s.host condition = (.ok false, host))
      (rest : Comes rig (.walk p behind) { s with host := host } events) :
      Comes rig (.loop p opening body behind (.whileTrue condition)) s
        (.asked p.source.depth opening :: events)
  | again {p opening condition body behind s host events}
      (holds : rig.host.evaluate s.host condition = (.ok true, host))
      (rest : Comes rig (.round p opening body behind (.whileTrue condition))
        { s with host := host } events) :
      Comes rig (.loop p opening body behind (.whileTrue condition)) s
        (.asked p.source.depth opening :: events)
  /-- The round may go on for ever. -/
  | round {p opening body behind again s events}
      (shallow : p.source.depth + 1 ≤ rig.settings.maxNesting)
      (inside : Comes rig (.drive (p.source.nested body)) s events) :
      Comes rig (.round p opening body behind again) s events
  | roundDone {p opening body behind again s events outcome s' events'}
      (shallow : p.source.depth + 1 ≤ rig.settings.maxNesting)
      (inside : Plays rig (.drive (p.source.nested body)) s events (.ok outcome) s')
      (rest : Comes rig (.loop p opening body behind again) s' events') :
      Comes rig (.round p opening body behind again) s (events ++ events')

/-- What ends has come to all its events. -/
theorem Plays.comes {rig : Rig σ} {a : Activity} {s s' : Session σ} {events : List Event}
    {result : Result} (h : Plays rig a s events result s') : Comes rig a s events := by
  induction h with
  | tooDeep deep => exact .nothing
  | gone shallow missing => exact .nothing
  | pass shallow found _ ih => exact .pass shallow found ih
  | finish closed => exact .nothing
  | close closed _ ih => exact .close closed ih
  | act effect done _ ih => exact .act effect done ih
  | fail effect failed => exact .reached
  | awaitRender reads => exact .reached
  | wait reads => exact .reached
  | loopEnd reads _ ih => exact .loopEnd reads ih
  | unmatched reads closing _ ih => exact .unmatched reads closing ih
  | badLoop reads closing repeats => exact .reached
  | enter reads closing repeats positive _ ih => exact .enter reads closing repeats positive ih
  | skip reads closing repeats nought _ ih => exact .skip reads closing repeats nought ih
  | badRange reads closing repeats counts => exact .reached
  | range reads closing repeats counts _ ih => exact .range reads closing repeats counts ih
  | whileTrue reads closing repeats _ ih => exact .whileTrue reads closing repeats ih
  | noneLeft _ ih => exact .noneLeft ih
  | nextRound _ ih => exact .nextRound ih
  | enough holds _ ih => exact .enough holds ih
  | again holds _ ih => exact .again holds ih
  | unknown holds => exact .asked
  | roundTooDeep deep => exact .nothing
  | roundFailed shallow _ ih => exact .round shallow ih
  | roundDone shallow inside _ _ ih => exact .roundDone shallow inside ih

/-- The run with a result and the session it leaves. -/
def Run.ofResult : Result → Session σ → Run σ Outcome
  | .ok outcome, s => .done outcome s
  | .error e, s => .failed e s

end Replay
