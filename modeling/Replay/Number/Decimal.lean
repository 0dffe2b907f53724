import Replay.Number.Binary64

/-!
# Decimals

Reading a decimal gives the double nearest its value. Writing a double uses the fewest digits that
read back as it, and of those the nearest; where a written number has its point, and whether it has
an exponent, is up to a `FloatFormat`.

* `Decimal.toBinary64` — the nearest double
* `Binary64.shortest` — the fewest digits that read back
* `FloatFormat.write` — the text of a finite double in a format
-/

set_option autoImplicit false

namespace Replay

/-- The number `coefficient · 10^exponent`. -/
structure Decimal where
  coefficient : Nat
  exponent : Int
deriving DecidableEq, Repr

/-- How many decimal digits a number is written with. -/
def digitCount (n : Nat) : Nat := (Nat.toDigits 10 n).length

namespace Decimal

/-- The double nearest a decimal. Beyond 310 digits before the point every decimal is infinite, and
with 330 noughts behind it every decimal is zero, so no power larger than that is formed. -/
def toBinary64 (negative : Bool) (d : Decimal) : Binary64 :=
  let size := (digitCount d.coefficient : Int) + d.exponent
  if d.coefficient = 0 then .zero negative
  else if 310 < size then .infinite negative
  else if size < -330 then .zero negative
  else if 0 ≤ d.exponent then
    .nearest negative (d.coefficient * tenTo d.exponent.toNat * Binary64.unit) 1
  else
    .nearest negative (d.coefficient * Binary64.unit) (tenTo (-d.exponent).toNat)

end Decimal

/-- Which of two equally near decimals is written. -/
inductive Tie
  | toEven
  | upward
deriving DecidableEq, Repr

namespace Binary64

/-- The number of digits before the point, or minus the number of noughts right behind it. -/
def decimalPosition (x : Binary64) : Int :=
  if unit ≤ x.magnitude then (digitCount (x.magnitude / unit) : Int)
  else 1 - (digitCount (unit / x.magnitude) : Int)

/-- The magnitude as a fraction of `10^k`. -/
def inPowersOfTen (x : Binary64) (k : Int) : Nat × Nat :=
  if 0 ≤ k then (x.magnitude, unit * tenTo k.toNat) else (x.magnitude * tenTo (-k).toNat, unit)

/-- The decimal one above, of `count` digits again if those were all nines. -/
def next (count : Nat) (d : Decimal) : Decimal :=
  if d.coefficient + 1 = tenTo count then ⟨tenTo (count - 1), d.exponent + 1⟩
  else ⟨d.coefficient + 1, d.exponent⟩

/-- Of the two neighbours of the number among the decimals of `count` digits, the one that reads
back as it, and the nearer one if both do. -/
def withDigits? (tie : Tie) (x : Binary64) (count : Nat) : Option Decimal :=
  let k := x.decimalPosition - (count : Int)
  let (a, d) := x.inPowersOfTen k
  let below : Decimal := ⟨a / d, k⟩
  let above := next count below
  let twice := 2 * (a % d)
  match below.toBinary64 x.negative == x, above.toBinary64 x.negative == x with
  | true, false => some below
  | false, true => some above
  | false, false => none
  | true, true =>
    if twice < d then some below
    else if d < twice then some above
    else match tie with
      | .upward => some above
      | .toEven => if below.coefficient % 2 = 0 then some below else some above

/-- The fewest digits that read back as a finite number. Seventeen always do; the exact expansion
stands behind them. -/
def shortest (tie : Tie) (x : Binary64) : Decimal :=
  if x.magnitude = 0 then ⟨0, 0⟩
  else ((List.range 17).findSome? fun n => x.withDigits? tie (n + 1)).getD
    ⟨x.magnitude * Nat.pow 5 1074, -1074⟩

end Binary64

/-- How a finite double is written. -/
structure FloatFormat where
  /-- Which of two equally near digits is written last. -/
  tie : Tie
  /-- The powers of ten of the leading digit that are written without an exponent; all if absent. -/
  positional : Option (Int × Int)
  /-- What follows a whole number that is written without an exponent. -/
  wholeMark : List Char
deriving Repr

namespace FloatFormat

/-- Digits with a point after the first `position` of them, filled up with noughts. -/
def pointed (wholeMark digits : List Char) (position : Int) : List Char :=
  if position ≤ 0 then "0.".toList ++ List.replicate (-position).toNat '0' ++ digits
  else
    let before := position.toNat
    if digits.length ≤ before then
      digits ++ List.replicate (before - digits.length) '0' ++ wholeMark
    else digits.take before ++ '.' :: digits.drop before

/-- Digits with a point after the first one, and the power of ten of that one. -/
def scientific (digits : List Char) (power : Int) : List Char :=
  let mantissa := match digits with
    | first :: second :: rest => first :: '.' :: second :: rest
    | few => few
  mantissa ++ 'e' :: (if power < 0 then '-' else '+') :: Nat.toDigits 10 power.natAbs

/-- A decimal in the format. -/
def layOut (f : FloatFormat) (d : Decimal) : List Char :=
  let digits := Nat.toDigits 10 d.coefficient
  let position := (digits.length : Int) + d.exponent
  let power := position - 1
  match f.positional with
  | none => pointed f.wholeMark digits position
  | some (low, high) =>
    if low ≤ power ∧ power ≤ high then pointed f.wholeMark digits position
    else scientific digits power

/-- The text of a finite double. -/
def write (f : FloatFormat) (x : Binary64) : List Char :=
  (if x.negative then ['-'] else []) ++ f.layOut (x.shortest f.tie)

/-- Digits alone: no exponent, and no point in a whole number. -/
def plain : FloatFormat := ⟨.upward, none, []⟩

/-- The plain text of any double. -/
def plainText : Binary64 → List Char
  | .nan => "NaN".toList
  | .infinite false => "inf".toList
  | .infinite true => "-inf".toList
  | x => plain.write x

end FloatFormat

end Replay
