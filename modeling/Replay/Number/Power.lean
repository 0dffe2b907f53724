/-!
# Powers

The powers of two and of ten by which numbers are scaled, and the bounds of integers that a machine
word holds.
-/

set_option autoImplicit false

namespace Replay

/-- A power of two. -/
def twoTo (n : Nat) : Nat := Nat.pow 2 n

/-- A power of ten. -/
def tenTo (n : Nat) : Nat := Nat.pow 10 n

theorem twoTo_zero : twoTo 0 = 1 := rfl

theorem twoTo_succ (n : Nat) : twoTo (n + 1) = twoTo n * 2 := rfl

theorem tenTo_zero : tenTo 0 = 1 := rfl

theorem tenTo_succ (n : Nat) : tenTo (n + 1) = tenTo n * 10 := rfl

theorem twoTo_pos (n : Nat) : 0 < twoTo n := Nat.pow_pos (by decide)

namespace Word

/-- The greatest natural number of 64 bits. -/
def greatest : Nat := twoTo 64 - 1

/-- The least integer of 64 bits. -/
def leastInt : Int := -(twoTo 63 : Nat)

/-- The greatest integer of 64 bits. -/
def greatestInt : Int := (twoTo 63 - 1 : Nat)

end Word

end Replay
