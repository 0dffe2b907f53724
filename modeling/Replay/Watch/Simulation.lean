import Replay.Watch.Basic

/-!
# Simulated watches

A clock that stands still while code runs and jumps ahead when everything waits, and a list of the
moments at which a render is reported. Reports that nobody has heard yet count as one.
-/

set_option autoImplicit false

namespace Replay

/-- A simulated clock with the reports that are still to come. -/
structure SimulatedClock where
  now : Time
  /-- When renders are reported, in order. -/
  reports : List Time
  /-- Whether there is an end of reports right after the last one. -/
  closes : Bool
deriving DecidableEq, Repr

namespace SimulatedClock

/-- A clock at nought without reports. -/
def silent : SimulatedClock := ⟨0, [], false⟩

/-- The clock with the reports dropped that have been made by now. -/
def heard (c : SimulatedClock) : SimulatedClock :=
  { c with reports := c.reports.dropWhile fun t => decide (t ≤ c.now) }

/-- What ends a rest, and the clock afterwards. -/
def restUntil (c : SimulatedClock) (listening : Bool) (until' : Time) : Waking × SimulatedClock :=
  let rested : Waking × SimulatedClock := (.rested, { c with now := max c.now until' })
  if listening then
    match c.reports with
    | [] => if c.closes then (.closed, c) else rested
    | t :: _ =>
      if t ≤ c.now then (.rendered, c.heard)
      else if t < until' then (.rendered, heard { c with now := t })
      else rested
  else rested

/-- The readings of the clock during a look. -/
def readings (c : SimulatedClock) : LookReadings := ⟨c.now, c.now, c.now, c.now, fun _ => c.now⟩

/-- Rests until a moment or a report. -/
def rest (listening : Bool) (until' : Time) : StateM SimulatedClock (Waking × WakeReadings) :=
  fun c =>
    let (why, c) := c.restUntil listening until'
    ((why, ⟨fun _ => c.now, c.now⟩), c)

/-- The clock of runs that carry a simulated one along. -/
def clock : Clock (StateM SimulatedClock) := ⟨fun c => (c.readings, c), rest⟩

end SimulatedClock

/-- Keeps a watch by a simulated clock. -/
def Watch.simulate {σ : Type} (rig : Rig σ) (budget : Nat) (o : WatchOptions) (listening : Bool)
    (looks : Nat) (s : Session σ) : StateM SimulatedClock (Run σ Watch) :=
  Watch.start SimulatedClock.clock rig budget o listening looks s

end Replay
