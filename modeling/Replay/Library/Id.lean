import Replay.Number.Decimal

/-!
# Fresh ids

What is recorded without an id gets one: 32 hexadecimal digits, drawn from a supply. Two ids from
one supply differ until it has been through all of them.
-/

set_option autoImplicit false

namespace Replay

/-- Where ids come from: the number of the next one. -/
structure IdSupply where
  next : Nat
deriving DecidableEq, Repr

namespace IdSupply

/-- The id of a number, modulo `2^128`. -/
def idOf (n : Nat) : String :=
  let digits := Nat.toDigits 16 (n % twoTo 128)
  String.ofList (List.replicate (32 - digits.length) '0' ++ digits)

/-- An id and the supply after it (`new_id`). -/
def draw (s : IdSupply) : String × IdSupply := (idOf s.next, ⟨s.next + 1⟩)

end IdSupply

end Replay
