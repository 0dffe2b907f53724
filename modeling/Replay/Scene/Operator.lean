import Replay.Scene.Condition

/-!
# Operators

An operator changes a scene by the arguments of a call, and may ask for a type of editor to run in.
The built-in ones add, delete, select and tag objects, count in properties and move the cursor.
-/

set_option autoImplicit false

namespace Replay

/-- An operator of a scene (`CommandHandler`). -/
structure Operator where
  /-- The type of editor that the operator asks for (`required_area`). -/
  area : Option String
  run : Call → Scene → Except SceneError Unit × Scene

namespace Operator

/-- The argument of a name without quotes, or the complaint that it is missing
(`required_string`). -/
def textArgument (c : Call) (name : String) : Except SceneError String :=
  match c.textArgument? name with
  | some s => .ok s
  | none => .error (.missingArgument c.id name)

/-- Adds an object, which alone is selected afterwards, and makes it active. -/
def addObject (c : Call) (s : Scene) : Except SceneError Unit × Scene :=
  match textArgument c "name" with
  | .error e => (.error e, s)
  | .ok name =>
    if s.hasObject name then (.error (.objectExists name), s)
    else
      let cleared : Scene :=
        { s with objects := s.objects.map fun o => { o with selected := false } }
      let added := (cleared.addObject name).select name true
      (.ok (), { added with active := some name })

/-- Deletes the selected objects; none is active if the active one is among them. -/
def deleteObjects (_ : Call) (s : Scene) : Except SceneError Unit × Scene :=
  let kept : Scene := { s with objects := s.objects.filter fun o => !o.selected }
  let gone := kept.active.any fun name => !kept.hasObject name
  (.ok (), if gone then { kept with active := none } else kept)

/-- Whether an object is selected after an action on the selection; nothing for an unknown action.
The flag says whether any object was selected before. -/
def selectionAfter? (action : String) (anySelected : Bool) : Option (Bool → Bool) :=
  if action = "SELECT" then some fun _ => true
  else if action = "DESELECT" then some fun _ => false
  else if action = "INVERT" then some fun selected => !selected
  else if action = "TOGGLE" then some fun _ => !anySelected
  else none

/-- Selects or deselects the objects of the view layer. -/
def selectAll (c : Call) (s : Scene) : Except SceneError Unit × Scene :=
  let action := (c.textArgument? "action").getD "TOGGLE"
  match selectionAfter? action (s.objects.any fun o => o.selected) with
  | none => (.error (.unknownAction action), s)
  | some rule =>
    (.ok (), { s with objects := s.objects.map fun o =>
      if o.inViewLayer then { o with selected := rule o.selected } else o })

/-- Tags the selected objects. -/
def tagSelected (c : Call) (s : Scene) : Except SceneError Unit × Scene :=
  match textArgument c "tag" with
  | .error e => (.error e, s)
  | .ok tag =>
    let tagged : Scene := { s with objects := s.objects.map fun o =>
      if o.selected then { o with tags := o.tags ++ [tag] } else o }
    if s.objects.any fun o => o.selected then (.ok (), tagged)
    else (.error .nothingSelected, tagged)

/-- The number to count by: the argument `amount`, or one. -/
def amount (c : Call) : Except SceneError Binary64 :=
  match c.argument? "amount" with
  | none => .ok (.ofInt 1)
  | some text =>
    match (Literal.value? text).bind Json.asNumber? with
    | some x => .ok x
    | none => .error (.amountNotNumber text)

/-- A number as the value of a property: an integer if it is one of 64 bits, and nothing if it is
not finite. -/
def numberValue (x : Binary64) : Json :=
  if !x.isFinite then .null
  else match x.toInt? with
    | some i => if i.natAbs < twoTo 63 then .int i else .float x
    | none => .float x

/-- Adds a number to a property, which counts as zero if it is missing. The property is looked up
under its key as written, and stored under the key that the spelling means. -/
def increment (c : Call) (s : Scene) : Except SceneError Unit × Scene :=
  match textArgument c "key" with
  | .error e => (.error e, s)
  | .ok key =>
    match amount c with
    | .error e => (.error e, s)
    | .ok step =>
      match s.properties.get? key with
      | none => (.ok (), s.setProperty key (numberValue ((Binary64.ofInt 0).add step)))
      | some value =>
        match value.asNumber? with
        | none => (.error (.propertyNotNumber key), s)
        | some x => (.ok (), s.setProperty key (numberValue (x.add step)))

/-- Moves the cursor to the origin. -/
def snapCursor (_ : Call) (s : Scene) : Except SceneError Unit × Scene :=
  let zero := Json.float (.ofInt 0)
  (.ok (), s.setProperty "cursor_location" (.list [zero, zero, zero]))

end Operator

/-- The operators that a host knows, by their paths (`CommandRegistry`). -/
structure OperatorTable where
  entries : List (String × Operator)

namespace OperatorTable

/-- The operator of a path. -/
def get? (t : OperatorTable) (id : String) : Option Operator := t.entries.lookup id

/-- The table with one operator more, which replaces one of the same path. -/
def register (t : OperatorTable) (id : String) (o : Operator) : OperatorTable :=
  ⟨(id, o) :: t.entries.filter fun e => e.1 != id⟩

/-- The paths of all operators, sorted. -/
def ids (t : OperatorTable) : List String :=
  (t.entries.map Prod.fst).mergeSort fun a b => decide (a ≤ b)

/-- The built-in operators (`with_builtins`). -/
def builtIn : OperatorTable := ⟨[
  ("object.add", ⟨none, Operator.addObject⟩),
  ("object.delete", ⟨none, Operator.deleteObjects⟩),
  ("object.select_all", ⟨none, Operator.selectAll⟩),
  ("object.tag", ⟨none, Operator.tagSelected⟩),
  ("scene.increment", ⟨none, Operator.increment⟩),
  ("view3d.snap_cursor_to_center", ⟨some "VIEW_3D", Operator.snapCursor⟩)]⟩

end OperatorTable

end Replay
