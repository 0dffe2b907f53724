import Replay.Number.Binary64

/-!
# Time

Spans and moments are counted in nanoseconds, a moment from wherever its clock starts. Spans end at
`2^64` seconds and moments at `2^63` seconds.

* `Time.ofSeconds` — the span that a double number of seconds means
* `Time.deadline` — the moment that lies a span ahead
* `Time.text` — seconds with nine places
-/

set_option autoImplicit false

namespace Replay

/-- A number of nanoseconds: a `Duration`, or an `Instant` of a clock that begins at nought. -/
abbrev Time := Nat

namespace Time

/-- Nanoseconds in a second. -/
def second : Time := 1000000000

/-- Nanoseconds in a millisecond. -/
def millisecond : Time := 1000000

/-- A number of milliseconds. -/
def ofMillis (n : Nat) : Time := n * millisecond

/-- The longest span. -/
def longest : Time := twoTo 64 * second - 1

/-- The nanoseconds nearest a number of seconds (`timer_delay`). What is not above zero is no time
at all, and what is too long is the longest span. -/
def ofSeconds (x : Binary64) : Time :=
  match x with
  | .nan => 0
  | .infinite negative => if negative then 0 else longest
  | .finite negative _ _ _ =>
    if negative then 0 else min longest (roundDiv (x.magnitude * second) Binary64.unit)

/-- Thirty years, which stand for a deadline that no clock reaches (`FAR_FUTURE`). -/
def farAhead : Time := 946080000 * second

/-- The first moment that no clock can show. -/
def clockEnd : Time := twoTo 63 * second

/-- The moment a span after another one (`later`). If no clock can show it, it is the one thirty
years later, and if no clock can show that one either, it is the present one. -/
def deadline (now span : Time) : Time :=
  if now + span < clockEnd then now + span
  else if now + farAhead < clockEnd then now + farAhead
  else now

/-- A number padded with noughts on the left. -/
def padded (width n : Nat) : List Char :=
  let digits := Nat.toDigits 10 n
  List.replicate (width - digits.length) '0' ++ digits

/-- Seconds, a point and nine places. -/
def text (t : Time) : String :=
  String.ofList (Nat.toDigits 10 (t / second) ++ '.' :: padded 9 (t % second))

end Time

end Replay
