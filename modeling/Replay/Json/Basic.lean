import Replay.Number.Decimal

/-!
# JSON values

The value type that event payloads, library files and scene properties share. Integers and doubles
are told apart, since an integer keeps all its digits. An object keeps its members in the order in
which they were written, repeats included.

One constructor stands for no value: `unreadable` is a part of a document that is well formed but
denotes nothing, such as half a surrogate pair or a number beyond every double. A reader that skips
such a part does not care; a reader that needs it fails.
-/

set_option autoImplicit false

namespace Replay

/-- A JSON value (`Value`). -/
inductive Json
  | null
  | bool (b : Bool)
  | int (i : Int)
  | float (x : Binary64)
  | text (s : String)
  | list (items : List Json)
  | object (members : List (String × Json))
  | unreadable
deriving Repr

namespace Json

instance : Inhabited Json := ⟨null⟩

/-- The members of an object, the last one first. -/
def membersLastFirst : Json → List (String × Json)
  | object members => members.reverse
  | _ => []

/-- The value of an object's last member of a name. -/
def get? (j : Json) (name : String) : Option Json := j.membersLastFirst.lookup name

/-- The text that a value is. -/
def asText? : Json → Option String
  | text s => some s
  | _ => none

/-- The truth value that a value is. -/
def asBool? : Json → Option Bool
  | bool b => some b
  | _ => none

/-- The natural number below a bound that a value is. -/
def asNatBelow? (bound : Nat) : Json → Option Nat
  | int (.ofNat n) => if n < bound then some n else none
  | _ => none

/-- The integer between two bounds that a value is. -/
def asIntWithin? (low high : Int) : Json → Option Int
  | int i => if low ≤ i ∧ i ≤ high then some i else none
  | _ => none

/-- The double that a value is, integers included. -/
def asNumber? : Json → Option Binary64
  | int i => some (.ofInt i)
  | float x => some x
  | _ => none

/-- The items of a list. -/
def asList? : Json → Option (List Json)
  | list items => some items
  | _ => none

/-- What an optional value is: nothing for `null`. -/
def asOption? {α : Type} (read : Json → Option α) : Json → Option (Option α)
  | null => some none
  | j => (read j).map some

/-- Every item of a list, read by the same rule. -/
def asListOf? {α : Type} (read : Json → Option α) (j : Json) : Option (List α) :=
  j.asList?.bind fun items => items.mapM read

mutual

/-- Whether every part of a value denotes something. -/
def readable : Json → Bool
  | unreadable => false
  | list items => itemsReadable items
  | object members => membersReadable members
  | _ => true

/-- Whether every part of some items denotes something. -/
def itemsReadable : List Json → Bool
  | [] => true
  | j :: rest => j.readable && itemsReadable rest

/-- Whether every part of some members denotes something. -/
def membersReadable : List (String × Json) → Bool
  | [] => true
  | (_, j) :: rest => j.readable && membersReadable rest

end

mutual

/-- How many lists and objects stand inside each other. -/
def depth : Json → Nat
  | list items => itemsDepth items + 1
  | object members => membersDepth members + 1
  | _ => 0

/-- The greatest depth of some items. -/
def itemsDepth : List Json → Nat
  | [] => 0
  | j :: rest => max j.depth (itemsDepth rest)

/-- The greatest depth of some members. -/
def membersDepth : List (String × Json) → Nat
  | [] => 0
  | (_, j) :: rest => max j.depth (membersDepth rest)

end

mutual

/-- The value with one member for each name, the last one. -/
def settled : Json → Json
  | list items => list (itemsSettled items)
  | object members => object (membersSettled members)
  | j => j

/-- Some items with one member for each name. -/
def itemsSettled : List Json → List Json
  | [] => []
  | j :: rest => j.settled :: itemsSettled rest

/-- Some members, those left out that a later one of the same name replaces. -/
def membersSettled : List (String × Json) → List (String × Json)
  | [] => []
  | (name, j) :: rest =>
    if (rest.lookup name).isSome then membersSettled rest
    else (name, j.settled) :: membersSettled rest

end

end Json

end Replay
