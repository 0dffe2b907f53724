import Replay.Playback.Session

/-!
# Passes

A pass goes through the steps of a resumption from the front. It ends where it has to wait, where a
counted loop begins (the loop's body is a pass of its own, with a frame that leads back), or behind
the last step, where the innermost frame says what comes next. The bodies of conditional and range
loops are played inside the pass.

* `Pass.walk` — one pass over some steps
* `Resumption.drive` — pass after pass until one finishes or suspends
* `Session.play` — an action from its beginning
* `Session.tick` — what is due by the timetable
* `Session.renderComplete` — what waited for a render

Every run has a budget, since a conditional loop need not end. A larger budget never changes a
result.
-/

set_option autoImplicit false

namespace Replay

variable {σ : Type}

/-- How a playback ends that does not fail (`PlayOutcome`). -/
inductive Outcome
  | finished
  /-- Something is left to do after a time, or after a render. -/
  | suspended
deriving DecidableEq, Repr

/-- How a pass ends that does not fail. -/
inductive Flow
  | finished
  | suspended
  /-- Another pass follows at once. -/
  | proceed (r : Resumption)
deriving DecidableEq, Repr

namespace Resumption

/-- What follows a pass that has come to its end: another round of the innermost loop, or the steps
behind it (the end of `run_pass`). -/
def close (r : Resumption) : Flow :=
  match r.frames with
  | [] => .finished
  | f :: outer =>
    if 1 < f.remaining then
      .proceed (r.proceed f.body ({ f with remaining := f.remaining - 1 } :: outer))
    else .proceed (r.proceed f.after outer)

end Resumption

/-! ## Loops that are played inside a pass -/

/-- How often a range loop runs its body; nothing if the range is not one (the head of
`run_range_loop`). -/
def rangeCount? (start stop step : Binary64) : Option Nat :=
  if step.isZero ∨ ¬(start.isFinite ∧ stop.isFinite ∧ step.isFinite) then none
  else some (((stop.sub start).div step).ceil.clamp Word.greatest)

/-- Runs a body a number of times, up to the first failure (the loop of `run_range_loop`). -/
def Run.times (body : Session σ → Run σ Unit) : Nat → Session σ → Run σ Unit
  | 0, s => .done () s
  | n + 1, s => (body s).andThen fun _ s => Run.times body n s

/-- Runs a body as long as a test holds, up to the first failure, and at most as often as the budget
allows (`run_condition_loop`). -/
def Run.whileTrue (test : Session σ → Run σ Bool) (body : Session σ → Run σ Unit) :
    Nat → Session σ → Run σ Unit
  | 0, _ => .exhausted
  | budget + 1, s =>
    (test s).andThen fun holds s =>
      if holds then (body s).andThen fun _ s => Run.whileTrue test body budget s
      else .done () s

/-! ## One pass -/

/-- What one pass works with (the surroundings of the loop in `run_pass`). -/
structure Pass (σ : Type) where
  rig : Rig σ
  /-- The resumption whose steps are gone through. -/
  source : Resumption
  grouping : Grouping
  /-- The surface that commands run on unless they ask for another one. -/
  base : Surface
  /-- How often a conditional loop may run its body. -/
  budget : Nat
  /-- Plays a resumption to its end, for the bodies of loops. -/
  inner : Resumption → Session σ → Run σ Outcome

namespace Pass

/-- Does what a step does to the host at once. -/
def act (p : Pass σ) (step : Step) (s : Session σ)
    (effect : σ → Except PlayError Unit × σ) : Run σ Unit :=
  match effect s.host with
  | (.ok (), host) => .done () { s with host := host }
  | (.error e, host) => .failAt p.source step e { s with host := host }

/-- Plays the body of a loop inside the pass (`drive_body`). That the body is suspended is not
looked at. -/
def playBody (p : Pass σ) (opening : Step) (body : List Step) (s : Session σ) : Run σ Unit :=
  let nested := p.source.nested body
  let limit := p.rig.settings.maxNesting
  if limit < nested.depth then .failAt p.source opening (.nestingTooDeep limit) s
  else (p.inner nested s).andThen fun _ s => .done () s

/-- Asks the host whether the condition of a loop holds. -/
def test (p : Pass σ) (opening : Step) (condition : String) (s : Session σ) : Run σ Bool :=
  match p.rig.host.evaluate s.host condition with
  | (.ok holds, host) => .done holds { s with host := host }
  | (.error report, host) =>
    .failAt p.source opening (.condition condition report) { s with host := host }

/-- The resumption behind a step that suspends playback for a time. -/
def behind (p : Pass σ) (rest : List Step) : Resumption :=
  { p.source.proceed rest p.source.frames with surface := some p.base }

/-- The resumption that enters a counted loop. -/
def entering (p : Pass σ) (count : Int) (body after : List Step) : Resumption :=
  p.source.proceed body (⟨body, count, after⟩ :: p.source.frames)

/-- Goes through some steps, of which the first `skip` have been dealt with (the loop of
`run_pass`). -/
def walk (p : Pass σ) : Nat → List Step → Session σ → Run σ Flow
  | _, [], s => .done p.source.close s
  | skip + 1, _ :: rest, s => walk p skip rest s
  | 0, step :: rest, s =>
    match step.instruction with
    | .error cause => .failAt p.source step (.malformedDirective step.text cause) s
    | .ok (.directive .awaitRender) => .done .suspended s
    | .ok (.directive (.wait seconds)) =>
      .done .suspended (s.suspend p.rig (p.behind rest) (Time.ofSeconds seconds))
    | .ok (.directive (.loop l)) =>
      match Step.closing? rest with
      | none => walk p 0 rest s
      | some place =>
        match l.repetition with
        | .error cause => .failAt p.source step (.malformedDirective step.text cause) s
        | .ok (.whileTrue condition) =>
          (Run.whileTrue (p.test step condition) (p.playBody step (rest.take place))
            p.budget s).andThen fun _ s => walk p (place + 1) rest s
        | .ok (.range start stop by') =>
          match rangeCount? start stop by' with
          | none => .failAt p.source step (.invalidRange start stop by') s
          | some count =>
            (Run.times (p.playBody step (rest.take place)) count s).andThen fun _ s =>
              walk p (place + 1) rest s
        | .ok (.times count) =>
          if 0 < count then
            .done (.proceed (p.entering count (rest.take place) (rest.drop (place + 1)))) s
          else walk p (place + 1) rest s
    | .ok (.directive .loopEnd) => walk p 0 rest s
    | .ok (.directive (.select selection)) =>
      (p.act step s (p.rig.host.makeSelection selection)).andThen fun _ s => walk p 0 rest s
    | .ok (.directive (.script source)) =>
      (p.act step s (p.rig.host.playScript step.id source)).andThen fun _ s => walk p 0 rest s
    | .ok (.plain command) =>
      (p.act step s (p.rig.host.playCommand p.grouping p.base step command)).andThen
        fun _ s => walk p 0 rest s

end Pass

namespace Session

/-- The session in which a fresh resumption is queued for the first render it will wait for, if any
step follows that wait (`enqueue_render_wait`). -/
def announce (s : Session σ) (r : Resumption) : Session σ :=
  if r.fresh then
    match Step.afterRender? r.steps with
    | some step => s.await ⟨r.collection, r.actionId, step.id⟩
    | none => s
  else s

end Session

namespace Resumption

/-- One pass over the steps of a resumption (`run_pass`). There is none if the action is gone. -/
def pass (rig : Rig σ) (budget : Nat) (inner : Resumption → Session σ → Run σ Outcome)
    (r : Resumption) (s : Session σ) : Run σ Flow :=
  match s.library.action? r.collection r.actionId with
  | none => .done .finished s
  | some action =>
    let s := s.announce r
    let base := r.surface.getD (rig.host.ambient s.host)
    Pass.walk ⟨rig, r, action.grouping, base, budget, inner⟩ 0 r.steps s

/-- Pass after pass until one finishes or suspends, within a budget. -/
def drive (rig : Rig σ) : Nat → Resumption → Session σ → Run σ Outcome
  | 0, _, _ => .exhausted
  | budget + 1, r, s =>
    if rig.settings.maxNesting < r.depth then .failed (.nestingTooDeep rig.settings.maxNesting) s
    else
      match pass rig budget (drive rig budget) r s with
      | .done .finished s => .done .finished s
      | .done .suspended s => .done .suspended s
      | .done (.proceed next) s => drive rig budget next s
      | .failed e s => .failed e s
      | .exhausted => .exhausted

end Resumption

/-! ## Playing actions -/

namespace Session

/-- Plays an action from its beginning. -/
def play (rig : Rig σ) (budget : Nat) (collection : Collection) (id : String) (s : Session σ) :
    Run σ Outcome :=
  match s.library.action? collection id with
  | none => .failed (.missingAction id) s
  | some action => (Resumption.start collection action.id action.steps).drive rig budget s

/-- What a look at the timetable brought about. -/
structure TickReport where
  /-- How many resumptions ran. -/
  resumed : Nat
  /-- How many were dropped since their action is gone. -/
  skipped : Nat
  /-- The failures of those that ran, with the ids of their actions. -/
  failures : List (String × PlayError)
deriving DecidableEq, Repr

namespace TickReport

/-- The report of a look at which nothing was due. -/
def quiet : TickReport := ⟨0, 0, []⟩

end TickReport

/-- Runs resumptions one after the other; one that fails does not keep the next from running (the
loop of `tick`). -/
def resumeEach (rig : Rig σ) (budget : Nat) :
    List Resumption → TickReport → Session σ → Run σ TickReport
  | [], report, s => .done report s
  | r :: rest, report, s =>
    match s.library.action? r.collection r.actionId with
    | none => resumeEach rig budget rest { report with skipped := report.skipped + 1 } s
    | some _ =>
      let report := { report with resumed := report.resumed + 1 }
      match r.drive rig budget s with
      | .done _ s => resumeEach rig budget rest report s
      | .failed e s =>
        resumeEach rig budget rest
          { report with failures := report.failures ++ [(r.actionId, e)] } s
      | .exhausted => .exhausted

/-- Runs what is due at a moment. What is scheduled meanwhile has to wait for another look. -/
def tick (rig : Rig σ) (budget : Nat) (now : Time) (s : Session σ) : Run σ TickReport :=
  let (due, left) := s.timetable.takeDue now
  resumeEach rig budget (due.map TimetableEntry.payload) .quiet { s with timetable := left }

/-- Schedules what waited for a render, as far as its action and step still exist; the number says
how much that is (the loop of `render_complete`). -/
def releaseEach (rig : Rig σ) : List RenderWait → Nat → Session σ → Nat × Session σ
  | [], released, s => (released, s)
  | w :: rest, released, s =>
    match s.library.action? w.collection w.actionId with
    | none => releaseEach rig rest released s
    | some action =>
      match action.stepIndex? w.stepId with
      | none => releaseEach rig rest released s
      | some index =>
        let r := Resumption.start w.collection action.id (action.steps.drop index)
        releaseEach rig rest (released + 1) (s.suspend rig r rig.settings.resumeSpan)

/-- Ends every wait for a render. -/
def renderComplete (rig : Rig σ) (s : Session σ) : Nat × Session σ :=
  releaseEach rig s.waits 0 { s with waits := [] }

end Session

end Replay
