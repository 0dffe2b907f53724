import Replay.Playback.Pass

/-!
# Watches

A watch looks at the timetable of a session again and again until nothing is left in it and no wait
for a render can end. Between two looks it rests until the next look is due, or a render that it
simulates is over, or a signal comes from outside. All that it knows of time and signals is what it
is told: the readings of a clock, and why it woke.

* `Watch.look` — one look; either the watch is over, or it rests until a moment
* `Watch.wake` — what happens when it wakes
* `Watch.settle` — what is left in the end
* `Watch.keep` — look after look, by a clock in any monad
-/

set_option autoImplicit false

namespace Replay

/-- How a watch is kept (`DriverOptions`). -/
structure WatchOptions where
  /-- The span between two looks. -/
  interval : Time
  /-- How long a simulated render takes; renders are not simulated if it is absent. -/
  renderSpan : Option Time
  /-- After how long the watch is given up. -/
  timeout : Option Time
deriving DecidableEq, Repr

namespace WatchOptions

/-- Looks fifty milliseconds apart, no simulated render, no end. -/
def usual : WatchOptions := ⟨Time.ofMillis 50, none, none⟩

end WatchOptions

/-- Why a watch wakes (`next_render_signal` or the end of the rest). -/
inductive Waking
  /-- The moment has come. -/
  | rested
  /-- A render has been reported complete. -/
  | rendered
  /-- No render will be reported any more. -/
  | closed
deriving DecidableEq, Repr

/-- How far a watch has got (`DriverSummary`). -/
structure Watch where
  looks : Nat
  resumed : Nat
  skipped : Nat
  /-- The failed resumptions, with the ids of their actions. -/
  failures : List (String × PlayError)
  /-- How many renders have been reported complete, simulated ones included (`renders_signalled`). -/
  renders : Nat
  /-- How many waits for a render are left when the watch is over (`waiting_for_render`). -/
  waiting : Nat
  timedOut : Bool
  /-- When the simulated render is over (`render_deadline`). -/
  renderEnd : Option Time
  /-- Whether renders can be reported from outside. -/
  listening : Bool
deriving DecidableEq, Repr

/-- The readings of the clock during one look. -/
structure LookReadings where
  /-- For what is due. -/
  due : Time
  /-- For the beginning of a simulated render. -/
  armed : Time
  /-- For the timeout. -/
  checked : Time
  /-- For the beginning of the rest. -/
  rest : Time
  /-- For each new entry of the timetable. -/
  entries : Nat → Time

/-- The readings of the clock when a watch has woken. -/
structure WakeReadings where
  /-- For each new entry of the timetable. -/
  entries : Nat → Time
  /-- For the end of a simulated render. -/
  ended : Time

/-- A clock of a monad: it tells the time, and rests until a moment or until it is woken. Only a
listening clock is woken by reports. -/
structure Clock (m : Type → Type) where
  read : m LookReadings
  rest : (listening : Bool) → (until' : Time) → m (Waking × WakeReadings)

/-- What a look leads to. -/
inductive Look
  | finished (w : Watch)
  /-- The watch rests until a moment. -/
  | rest (w : Watch) (until' : Time)
deriving DecidableEq, Repr

namespace Watch

variable {σ : Type}

/-- A watch that has not begun. -/
def fresh (listening : Bool) : Watch := ⟨0, 0, 0, [], 0, 0, false, none, listening⟩

/-- The watch after what a look at the timetable brought about. -/
def count (w : Watch) (r : Session.TickReport) : Watch :=
  { w with
    looks := w.looks + 1
    resumed := w.resumed + r.resumed
    skipped := w.skipped + r.skipped
    failures := w.failures ++ r.failures }

/-- Whether nothing is left to wait for: nothing is scheduled, and no wait for a render can end. -/
def isDone (w : Watch) (o : WatchOptions) (s : Session σ) : Bool :=
  s.isIdle && (s.waits.isEmpty || (!w.listening && o.renderSpan.isNone))

/-- The watch with a simulated render begun, if playback has come to wait for one. -/
def arm (w : Watch) (o : WatchOptions) (now : Time) (s : Session σ) : Watch :=
  match s.isIdle, w.renderEnd, o.renderSpan with
  | true, none, some span => { w with renderEnd := some (Time.deadline now span) }
  | _, _, _ => w

/-- Whether the watch has lasted too long. -/
def isLate (o : WatchOptions) (started now : Time) : Bool :=
  o.timeout.any fun limit => decide (limit ≤ now - started)

/-- When a rest ends: at the next look or at the end of a simulated render. -/
def restEnd (w : Watch) (o : WatchOptions) (now : Time) : Time :=
  let next := Time.deadline now (max o.interval Time.millisecond)
  match w.renderEnd with
  | some t => min next t
  | none => next

/-- One look: runs what is due, and says whether the watch is over (a round of `run_until_idle` up to
its rest). -/
def look (rig : Rig σ) (budget : Nat) (o : WatchOptions) (started : Time) (readings : LookReadings)
    (w : Watch) (s : Session σ) : Run σ Look :=
  (s.tick { rig with clock := readings.entries } budget readings.due).andThen fun report s =>
    let w := w.count report
    if w.isDone o s then .done (.finished w) s
    else
      let w := w.arm o readings.armed s
      if isLate o started readings.checked then .done (.finished { w with timedOut := true }) s
      else .done (.rest w (w.restEnd o readings.rest)) s

/-- The watch and the session after a render has been reported complete. -/
def report (rig : Rig σ) (readings : WakeReadings) (w : Watch) (s : Session σ) :
    Watch × Session σ :=
  ({ w with renders := w.renders + 1 },
    (s.renderComplete { rig with clock := readings.entries }).2)

/-- What a signal from outside does. -/
def hear (rig : Rig σ) (why : Waking) (readings : WakeReadings) (w : Watch) (s : Session σ) :
    Watch × Session σ :=
  match why with
  | .rested => (w, s)
  | .rendered => report rig readings w s
  | .closed => ({ w with listening := false }, s)

/-- What happens when the watch wakes: a signal is heard first, and then a simulated render may be
over (the round after its rest). -/
def wake (rig : Rig σ) (why : Waking) (readings : WakeReadings) (w : Watch) (s : Session σ) :
    Watch × Session σ :=
  let (w, s) := hear rig why readings w s
  match w.renderEnd with
  | some t =>
    if t ≤ readings.ended then report rig readings { w with renderEnd := none } s else (w, s)
  | none => (w, s)

/-- The watch when it is over, with the waits that are left. -/
def settle (w : Watch) (s : Session σ) : Watch := { w with waiting := s.waits.length }

/-- Look after look until the watch is over, at most as many as `looks` (the loop of
`run_until_idle`). -/
def keep {m : Type → Type} [Monad m] (clock : Clock m) (rig : Rig σ) (budget : Nat)
    (o : WatchOptions) (started : Time) : Nat → Watch → Session σ → m (Run σ Watch)
  | 0, _, _ => pure .exhausted
  | looks + 1, w, s => do
    let readings ← clock.read
    match look rig budget o started readings w s with
    | .done (.finished w) s => pure (.done (w.settle s) s)
    | .failed e s => pure (.failed e s)
    | .exhausted => pure .exhausted
    | .done (.rest w until') s =>
      let (why, readings) ← clock.rest w.listening until'
      let (w, s) := wake rig why readings w s
      keep clock rig budget o started looks w s

/-- Keeps a watch from now on (`run_until_idle`). -/
def start {m : Type → Type} [Monad m] (clock : Clock m) (rig : Rig σ) (budget : Nat)
    (o : WatchOptions) (listening : Bool) (looks : Nat) (s : Session σ) : m (Run σ Watch) := do
  let readings ← clock.read
  keep clock rig budget o readings.due looks (fresh listening) s

end Watch

end Replay
