import Replay.Json.Basic

/-!
# Records in JSON

A record is written as an object, or as the list of its fields in order. Unknown members are
skipped; a known one may stand only once. A field with a default may be left out, which is not the
same as being `null`. A value of an enumeration is its name, or an object with that one member and
no content.
-/

set_option autoImplicit false

namespace Replay.Json

/-- The fields of a record that are present. -/
abbrev Fields := List (String × Json)

/-- Whether no name occurs twice. -/
def distinctNames : Fields → Bool
  | [] => true
  | (name, _) :: rest => (rest.lookup name).isNone && distinctNames rest

/-- The fields of a record with the given names. -/
def fields? (names : List String) : Json → Option Fields
  | object members =>
    let known := members.filter fun m => names.contains m.1
    if distinctNames known then some known else none
  | list items => if items.length ≤ names.length then some (names.zip items) else none
  | _ => none

/-- A field that has to be there. -/
def Fields.required {α : Type} (fs : Fields) (name : String) (read : Json → Option α) : Option α :=
  (fs.lookup name).bind read

/-- A field that has a default. -/
def Fields.withDefault {α : Type} (fs : Fields) (name : String) (default : α)
    (read : Json → Option α) : Option α :=
  match fs.lookup name with
  | none => some default
  | some j => read j

/-- The name of a value of an enumeration. -/
def variant? : Json → Option String
  | text s => some s
  | object [(name, null)] => some name
  | _ => none

end Replay.Json
