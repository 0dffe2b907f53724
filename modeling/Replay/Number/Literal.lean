import Replay.Number.Decimal

/-!
# Numerals in running text

Integers and decimals as they are written in commands and settings. An integer has an optional sign
and at least one digit. A decimal may have its point at either end and an exponent; `inf`,
`infinity` and `nan` in any case are numerals too. Digits are the ten of ASCII.
-/

set_option autoImplicit false

namespace Replay

/-- The value of a digit. -/
def digitValue (c : Char) : Nat := c.toNat - '0'.toNat

/-- The number written by a list of digits. -/
def digitsValue (s : List Char) : Nat := s.foldl (fun n c => 10 * n + digitValue c) 0

/-- A number written with digits only, at least one of them. -/
def natural? (s : List Char) : Option Nat :=
  if s ≠ [] ∧ s.all Char.isDigit then some (digitsValue s) else none

/-- A sign, if there is one, and the rest; the sign is true for a minus. -/
def takeSign : List Char → Bool × List Char
  | '-' :: rest => (true, rest)
  | '+' :: rest => (false, rest)
  | s => (false, s)

/-- An integer between two bounds. -/
def integer? (low high : Int) (s : List Char) : Option Int :=
  let (negative, digits) := takeSign s
  match natural? digits with
  | none => none
  | some n =>
    let i : Int := if negative then -(n : Int) else (n : Int)
    if low ≤ i ∧ i ≤ high then some i else none

/-- A natural number up to a bound; a plus sign may stand before it, a minus sign may not. -/
def naturalUpTo? (high : Nat) (s : List Char) : Option Nat :=
  let digits := match s with
    | '+' :: rest => rest
    | s => s
  match natural? digits with
  | some n => if n ≤ high then some n else none
  | none => none

/-- A decimal without a sign. -/
def decimal? (s : List Char) : Option Decimal :=
  let whole := s.takeWhile Char.isDigit
  let rest := s.dropWhile Char.isDigit
  let (fraction, rest) := match rest with
    | '.' :: more => (more.takeWhile Char.isDigit, more.dropWhile Char.isDigit)
    | more => ([], more)
  if whole = [] ∧ fraction = [] then none
  else
    let value := digitsValue (whole ++ fraction)
    let places := (fraction.length : Int)
    match rest with
    | [] => some ⟨value, -places⟩
    | e :: more =>
      if e = 'e' ∨ e = 'E' then
        let (negative, digits) := takeSign more
        match natural? digits with
        | none => none
        | some n => some ⟨value, (if negative then -(n : Int) else (n : Int)) - places⟩
      else none

/-- The double nearest the number that a text writes. -/
def float? (s : List Char) : Option Binary64 :=
  let (negative, body) := takeSign s
  match decimal? body with
  | some d => some (d.toBinary64 negative)
  | none =>
    let word := String.ofList (body.map Char.toLower)
    if word = "inf" ∨ word = "infinity" then some (.infinite negative)
    else if word = "nan" then some .nan
    else none

end Replay
