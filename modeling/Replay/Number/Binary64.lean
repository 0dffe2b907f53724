import Replay.Number.Power

/-!
# Double-precision numbers

A finite double is a significand times a power of two. Its exact value is a whole number of
*grains*, a grain being `2^-1074`, the least positive double, so every operation is carried out on
integers (or on one fraction of integers) and rounded once, to the nearest double, ties to even.

* `roundDiv` — the integer nearest a quotient
* `Binary64.nearest` — the double nearest a fraction of grains
* `Binary64.grains` — the exact value of a finite double
* `add`, `sub`, `mul`, `div`, `ceil`, `compare?` — arithmetic and order

There is one "not a number": payloads are not kept.
-/

set_option autoImplicit false

namespace Replay

/-- The integer nearest `a / d`; a tie goes to the even neighbour. -/
def roundDiv (a d : Nat) : Nat :=
  let q := a / d
  let twice := 2 * (a % d)
  if twice < d ∨ (twice = d ∧ q % 2 = 0) then q else q + 1

/-- What a significand and a scale have to satisfy: 53 binary digits, the first of them set unless
the scale is the least one, and a scale that the exponent field can hold. -/
def Fits (significand scale : Nat) : Prop :=
  significand < twoTo 53 ∧ (twoTo 52 ≤ significand ∨ scale = 0) ∧ scale ≤ 2045

instance (significand scale : Nat) : Decidable (Fits significand scale) := by
  unfold Fits; infer_instance

/-- A double-precision number. A finite one is `± significand · 2^scale` grains. -/
inductive Binary64
  | nan
  | infinite (negative : Bool)
  | finite (negative : Bool) (significand scale : Nat) (fits : Fits significand scale)
deriving DecidableEq, Repr

namespace Binary64

/-- Grains in one unit: `2^1074`. -/
def unit : Nat := twoTo 1074

/-- Zero with a sign. -/
def zero (negative : Bool) : Binary64 := .finite negative 0 0 (by decide)

instance : Inhabited Binary64 := ⟨zero false⟩

/-- A number from its parts; parts beyond the greatest double stand for an infinity. -/
def pack (negative : Bool) (significand scale : Nat) : Binary64 :=
  if h : Fits significand scale then .finite negative significand scale h else .infinite negative

/-- The least scale at which `a / d` grains has at most 53 binary digits before the point. -/
def scaleOf (a d : Nat) : Nat :=
  let p := a.log2 - (d.log2 + 53)
  if a < d * twoTo (p + 53) then p else p + 1

/-- The double nearest `± a / d` grains. -/
def nearest (negative : Bool) (a d : Nat) : Binary64 :=
  let scale := scaleOf a d
  let significand := roundDiv a (d * twoTo scale)
  if significand = twoTo 53 then pack negative (twoTo 52) (scale + 1)
  else pack negative significand scale

/-- The double nearest an integer. -/
def ofInt (i : Int) : Binary64 := nearest (decide (i < 0)) (i.natAbs * unit) 1

/-- The sign bit. -/
def negative : Binary64 → Bool
  | nan => false
  | infinite s => s
  | finite s _ _ _ => s

/-- Whether the number is neither infinite nor "not a number". -/
def isFinite : Binary64 → Bool
  | finite _ _ _ _ => true
  | _ => false

/-- The magnitude of a finite number in grains; `0` for the others. -/
def magnitude : Binary64 → Nat
  | finite _ m p _ => m * twoTo p
  | _ => 0

/-- The exact value of a finite number in grains; `0` for the others. -/
def grains (x : Binary64) : Int :=
  if x.negative then -(x.magnitude : Int) else (x.magnitude : Int)

/-- The number with the other sign. -/
def neg : Binary64 → Binary64
  | nan => nan
  | infinite s => infinite !s
  | finite s m p h => finite (!s) m p h

/-- Sum, rounded once. Opposite infinities have none; an exact zero is negative only if both
operands are. -/
def add : Binary64 → Binary64 → Binary64
  | nan, _ => nan
  | _, nan => nan
  | infinite s, infinite t => if s = t then infinite s else nan
  | infinite s, _ => infinite s
  | _, infinite t => infinite t
  | x, y =>
    let sum := x.grains + y.grains
    if sum = 0 then zero (x.negative && y.negative)
    else nearest (decide (sum < 0)) sum.natAbs 1

/-- Difference, rounded once. -/
def sub (x y : Binary64) : Binary64 := x.add y.neg

/-- Product, rounded once. -/
def mul : Binary64 → Binary64 → Binary64
  | nan, _ => nan
  | _, nan => nan
  | infinite s, y =>
    if y.isFinite && y.magnitude == 0 then nan else infinite (s != y.negative)
  | x, infinite t => if x.magnitude = 0 then nan else infinite (x.negative != t)
  | x, y => nearest (x.negative != y.negative) (x.magnitude * y.magnitude) unit

/-- Quotient, rounded once. -/
def div : Binary64 → Binary64 → Binary64
  | nan, _ => nan
  | _, nan => nan
  | infinite _, infinite _ => nan
  | infinite s, y => infinite (s != y.negative)
  | x, infinite t => zero (x.negative != t)
  | x, y =>
    let sign := x.negative != y.negative
    if y.magnitude = 0 then (if x.magnitude = 0 then nan else infinite sign)
    else nearest sign (x.magnitude * unit) y.magnitude

/-- The least integer not below the number, with the number's sign when it is zero. -/
def ceil : Binary64 → Binary64
  | finite s m p _ =>
    let grains := m * twoTo p
    let whole := if s then grains / unit else (grains + (unit - 1)) / unit
    nearest s (whole * unit) 1
  | x => x

/-- How two numbers compare; "not a number" compares with nothing. -/
def compare? : Binary64 → Binary64 → Option Ordering
  | nan, _ => none
  | _, nan => none
  | infinite s, infinite t => some (compare t.toNat s.toNat)
  | infinite s, _ => some (if s then .lt else .gt)
  | _, infinite t => some (if t then .gt else .lt)
  | x, y => some (compare x.grains y.grains)

/-- Whether the number is above zero. -/
def isPositive (x : Binary64) : Bool := x.compare? (zero false) == some .gt

/-- Whether the number is a zero of either sign. -/
def isZero (x : Binary64) : Bool := x.compare? (zero false) == some .eq

/-- The integer that a finite number is, if it is one. -/
def toInt? : Binary64 → Option Int
  | finite s m p _ =>
    let grains := m * twoTo p
    if grains % unit = 0 then
      some (if s then -((grains / unit : Nat) : Int) else ((grains / unit : Nat) : Int))
    else none
  | _ => none

/-- The integer part, cut to the range from `0` to `limit`. -/
def clamp (limit : Nat) : Binary64 → Nat
  | nan => 0
  | infinite s => if s then 0 else limit
  | finite s m p _ => if s then 0 else min limit (m * twoTo p / unit)

/-- The 64 bits of the interchange format: sign, biased exponent, fraction. -/
def toBits : Binary64 → Nat
  | nan => 2047 * twoTo 52 + twoTo 51
  | infinite s => s.toNat * twoTo 63 + 2047 * twoTo 52
  | finite s m p _ =>
    s.toNat * twoTo 63 + (if m < twoTo 52 then m else (p + 1) * twoTo 52 + (m - twoTo 52))

end Binary64

end Replay
