import Replay.Time

/-!
# Timetables

A timetable holds payloads until their deadlines. Its entries are numbered from nought in the order
in which they are made. What is due is taken out at once, ordered by deadline and then by number.

* `Timetable.schedule` — one more entry
* `Timetable.takeDue` — the entries that are due, and the timetable without them
* `Timetable.nextDeadline?` — the earliest deadline
-/

set_option autoImplicit false

namespace Replay

/-- A payload with its number and deadline (`Timer`). -/
structure TimetableEntry (α : Type) where
  number : Nat
  deadline : Time
  payload : α
deriving DecidableEq, Repr

namespace TimetableEntry

variable {α : Type}

/-- Whether an entry is due at a moment. -/
def isDue (now : Time) (e : TimetableEntry α) : Bool := decide (e.deadline ≤ now)

/-- Whether an entry is served no later than another one. -/
def precedes (a b : TimetableEntry α) : Bool :=
  decide (a.deadline < b.deadline ∨ (a.deadline = b.deadline ∧ a.number ≤ b.number))

end TimetableEntry

/-- Payloads that wait for their deadlines (`TimerQueue`). -/
structure Timetable (α : Type) where
  /-- How many entries have been made so far. -/
  issued : Nat
  waiting : List (TimetableEntry α)
deriving DecidableEq, Repr

namespace Timetable

variable {α : Type}

/-- A timetable without entries. -/
def empty : Timetable α := ⟨0, []⟩

/-- The timetable with one more entry, whose number is the count of those made before
(`schedule_at`). -/
def schedule (t : Timetable α) (deadline : Time) (payload : α) : Timetable α :=
  ⟨t.issued + 1, t.waiting ++ [⟨t.issued, deadline, payload⟩]⟩

/-- The timetable with one more entry, due a span after a reading of the clock (`schedule`). -/
def scheduleAfter (t : Timetable α) (now span : Time) (payload : α) : Timetable α :=
  t.schedule (Time.deadline now span) payload

/-- What is due at a moment, in order, and the timetable without it. -/
def takeDue (t : Timetable α) (now : Time) : List (TimetableEntry α) × Timetable α :=
  ((t.waiting.filter (TimetableEntry.isDue now)).mergeSort TimetableEntry.precedes,
    { t with waiting := t.waiting.filter fun e => !e.isDue now })

/-- The earliest deadline. -/
def nextDeadline? (t : Timetable α) : Option Time :=
  (t.waiting.map TimetableEntry.deadline).min?

/-- How many entries wait (`active_count`). -/
def count (t : Timetable α) : Nat := t.waiting.length

end Timetable

end Replay
