import Replay.Scene.Basic
import Replay.Scene.Error
import Replay.Number.Literal

/-!
# Conditions

A condition is one operand, which holds if it is neither zero, empty nor `False`, or two operands
with a relation between them. An operand is a literal, `selected_count`, or the name of a property.

The relations are tried one after the other, those of two characters first, and the first one that
occurs anywhere in the text cuts it in two.

* `Literal.value?` — the value of a literal
* `Operand.of` — the value of an operand in a scene
* `Relation.holds` — a relation between two values
* `Scene.satisfies` — whether a condition holds in a scene
-/

set_option autoImplicit false

namespace Replay

open Text

/-- The value of a literal: a truth value, an integer of 64 bits, a finite decimal or a quoted text
(`parse_literal`). -/
def Literal.value? (text : String) : Option Json :=
  let s := trim text.toList
  if s = "True".toList then some (.bool true)
  else if s = "False".toList then some (.bool false)
  else match integer? Word.leastInt Word.greatestInt s with
    | some i => some (.int i)
    | none =>
      match float? s with
      | some x => if x.isFinite then some (.float x) else none
      | none => (quoted? s).map fun inner => .text (String.ofList inner)

/-- The value of an operand. -/
inductive Operand
  | number (x : Binary64)
  | text (s : String)
  | bool (b : Bool)
deriving DecidableEq, Repr

namespace Operand

/-- Whether an operand alone makes a condition hold. -/
def truthy : Operand → Bool
  | number x => !x.isZero
  | text s => s != ""
  | bool b => b

/-- The number that an operand counts as (`as_number`). -/
def number? : Operand → Option Binary64
  | number x => some x
  | bool b => some (.ofInt (if b then 1 else 0))
  | text _ => none

/-- The type of an operand in errors. -/
def typeName : Operand → String
  | number _ => "float"
  | text _ => "str"
  | bool _ => "bool"

/-- The operand that a JSON value is (`from_value`). -/
def ofJson? : Json → Option Operand
  | .bool b => some (bool b)
  | .int i => some (number (.ofInt i))
  | .float x => some (number x)
  | .text s => some (text s)
  | _ => none

/-- The value of the operand written by a text: of a literal, of the size of the selection, or of a
property (`operand`). -/
def of (scene : Scene) (written : String) : Except SceneError Operand :=
  match (Literal.value? written).bind ofJson? with
  | some operand => .ok operand
  | none =>
    let key := Scene.propertyKey written
    if key = "selected_count" then .ok (number (.ofInt scene.selected.length))
    else match (scene.properties.get? key).bind ofJson? with
      | some operand => .ok operand
      | none => .error (.undefinedName key)

/-- How two operands compare: texts by their characters, the others as numbers. -/
def compare? : Operand → Operand → Option Ordering
  | text s, text t => some (compare s t)
  | a, b =>
    match a.number?, b.number? with
    | some x, some y => x.compare? y
    | _, _ => none

end Operand

/-- A relation between two operands. -/
inductive Relation
  | atMost
  | atLeast
  | equal
  | unequal
  | less
  | greater
deriving DecidableEq, Repr

namespace Relation

/-- The relations in the order in which they are looked for (`OPERATORS`). -/
def all : List Relation := [atMost, atLeast, equal, unequal, less, greater]

/-- How a relation is written. -/
def sign : Relation → String
  | atMost => "<="
  | atLeast => ">="
  | equal => "=="
  | unequal => "!="
  | less => "<"
  | greater => ">"

/-- Whether a relation agrees with an order. -/
def accepts : Relation → Ordering → Bool
  | atMost, o => o != .gt
  | atLeast, o => o != .lt
  | equal, o => o == .eq
  | unequal, o => o != .eq
  | less, o => o == .lt
  | greater, o => o == .gt

/-- Whether a relation holds between two operands (`compare`). What does not compare is unequal, and
in no other relation. -/
def holds (r : Relation) (a b : Operand) : Except SceneError Bool :=
  match a.compare? b with
  | some o => .ok (r.accepts o)
  | none =>
    match r with
    | equal => .ok false
    | unequal => .ok true
    | _ => .error (.incomparable r.sign a.typeName b.typeName)

/-- The first of some relations that occurs in a text, and the two sides of it. -/
def cutFirst? (s : List Char) : List Relation → Option (Relation × List Char × List Char)
  | [] => none
  | r :: rest =>
    match cutAt? r.sign.toList s with
    | some (left, right) => some (r, left, right)
    | none => cutFirst? s rest

end Relation

namespace Scene

/-- Whether a condition holds (`evaluate`). -/
def satisfies (scene : Scene) (condition : String) : Except SceneError Bool :=
  let s := trim condition.toList
  if s = [] then .error .emptyCondition
  else match Relation.cutFirst? s Relation.all with
    | some (r, left, right) =>
      match Operand.of scene (String.ofList left) with
      | .error e => .error e
      | .ok a =>
        match Operand.of scene (String.ofList right) with
        | .error e => .error e
        | .ok b => r.holds a b
    | none => (Operand.of scene (String.ofList s)).map Operand.truthy

end Scene

end Replay
