import Replay.Text.Basic
import Replay.Time

/-!
# Labels

A label that is taken is replaced by its stem and the least free number, as in `Bevel.001`. The stem
is the label without a number at its end.
-/

set_option autoImplicit false

namespace Replay.Label

open Text

/-- A label without a point and digits at its end. -/
def stem (label : String) : String :=
  match cutLast? '.' label.toList with
  | some (front, number) =>
    if number ≠ [] ∧ number.all Char.isDigit then String.ofList front else label
  | none => label

/-- A stem with a number of at least three digits. -/
def numbered (stem : String) (k : Nat) : String :=
  String.ofList (stem.toList ++ '.' :: Time.padded 3 k)

/-- The first free label among those with the number `k` and the `tries` numbers after it; if all
but the last one are taken, the last one. -/
def firstFree (taken : List String) (stem : String) : Nat → Nat → String
  | 0, k => numbered stem k
  | tries + 1, k =>
    if taken.contains (numbered stem k) then firstFree taken stem tries (k + 1)
    else numbered stem k

/-- The label itself if it is free, and otherwise its stem with the least free number
(`check_for_duplicates`). There are as many tries as taken labels, so the last one cannot be taken
too. -/
def unused (taken : List String) (label : String) : String :=
  if taken.contains label then firstFree taken (stem label) taken.length 1 else label

end Replay.Label
