import Replay.Playback.Effect
import Replay.Playback.Resumption
import Replay.Playback.Timetable
import Replay.Settings.Basic

/-!
# Sessions

A session is everything that playback may change: the host, the library whose alerts it raises, the
timetable of suspended actions and the queue of those that wait for a render. What it may not change
is in a `Rig`: the host's operations, the settings and the clock.

The clock is read once for each entry made in the timetable, so a reading is known by the number of
its entry.

A name in brackets in a docstring is the one that the player itself has for the thing.
-/

set_option autoImplicit false

namespace Replay

/-- What playback works with and does not change: the operations of a host, and the settings of a
`Player` and the clock of its `Scheduler`. -/
structure Rig (σ : Type) where
  host : Host σ
  settings : PlaySettings
  /-- The reading of the clock when the entry of a number is made. -/
  clock : Nat → Time

/-- What playback changes: a `Player`, and the host and the library that it is called with. -/
structure Session (σ : Type) where
  host : σ
  library : Library
  timetable : Timetable Resumption
  /-- The actions that wait for a render, in the order of their arrival (`RenderCompleteQueue`). -/
  waits : List RenderWait

namespace Session

variable {σ : Type}

/-- A session in which nothing waits. -/
def begin (host : σ) (library : Library) : Session σ := ⟨host, library, .empty, []⟩

/-- The session with one more suspended action (`register_delayed`). -/
def suspend (rig : Rig σ) (s : Session σ) (r : Resumption) (span : Time) : Session σ :=
  { s with timetable :=
      s.timetable.scheduleAfter (rig.clock s.timetable.issued) span r }

/-- The session with the alerts raised of an action and a step. -/
def alert (s : Session σ) (r : Resumption) (culprit : Step) : Session σ :=
  { s with library := s.library.raiseAlert r.collection r.actionId culprit.id }

/-- The session with one more action that waits for a render (`enqueue`). -/
def await (s : Session σ) (w : RenderWait) : Session σ := { s with waits := s.waits ++ [w] }

/-- How many suspended actions there are. -/
def pending (s : Session σ) : Nat := s.timetable.count

/-- Whether no action is suspended; some may still wait for a render. -/
def isIdle (s : Session σ) : Bool := s.pending == 0

end Session

/-- How a run within a budget ends: with a `Result`, or without one if it needs more than its budget,
which is neither success nor failure. -/
inductive Run (σ α : Type)
  | done (a : α) (s : Session σ)
  | failed (e : PlayError) (s : Session σ)
  | exhausted

namespace Run

variable {σ α β : Type}

/-- Goes on after a run that is done. -/
def andThen (r : Run σ α) (next : α → Session σ → Run σ β) : Run σ β :=
  match r with
  | done a s => next a s
  | failed e s => failed e s
  | exhausted => exhausted

/-- The failure of a resumption at one of its steps, whose alert is raised (`fail`). -/
def failAt (r : Resumption) (culprit : Step) (e : PlayError) (s : Session σ) : Run σ α :=
  failed e (s.alert r culprit)

end Run

end Replay
