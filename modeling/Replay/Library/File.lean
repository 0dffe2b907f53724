import Replay.Library.Basic
import Replay.Library.Id
import Replay.Json.Record

/-!
# Library files

A library is kept in a JSON file. Everything but the text of a step may be left out; an id that is
left out is drawn from a supply. A saved file holds every field, in order.

* `Library.read?` — the library that a file holds
* `Library.save` — the text of a library's file
-/

set_option autoImplicit false

namespace Replay

open Json

/-- Reading that may draw ids, and may fail. -/
abbrev Drawing (α : Type) := StateT IdSupply Option α

namespace Drawing

/-- An id from the supply. -/
def id : Drawing String := fun supply => some supply.draw

/-- The id that some fields hold, or a fresh one. -/
def idFrom (fs : Fields) : Drawing String :=
  match fs.lookup "id" with
  | some j => fun supply => j.asText?.map fun s => (s, supply)
  | none => id

/-- Items read one after the other. -/
def each {α : Type} (read : Json → Drawing α) : List Json → Drawing (List α)
  | [] => pure []
  | j :: rest => do
    let a ← read j
    let more ← each read rest
    pure (a :: more)

/-- A list field that is empty if it is left out. -/
def listFrom {α : Type} (fs : Fields) (name : String) (read : Json → Drawing α) :
    Drawing (List α) :=
  match fs.lookup name with
  | none => pure []
  | some (.list items) => each read items
  | some _ => failure

end Drawing

/-- A text field that is empty if it is left out. -/
def Json.Fields.text (fs : Fields) (name : String) : Option String :=
  fs.withDefault name "" asText?

namespace CallMode

/-- The way of calling that a JSON value names. -/
def ofJson? (j : Json) : Option CallMode := j.variant?.bind ofContext?

end CallMode

namespace Grouping

/-- The grouping that a JSON value names. -/
def ofJson? (j : Json) : Option Grouping := j.variant?.bind ofWord?

end Grouping

namespace Collection

/-- The collection that a JSON value names. -/
def ofJson? (j : Json) : Option Collection := j.variant?.bind ofWord?

end Collection

namespace Step

/-- The step that a JSON value describes. -/
def ofJson (j : Json) : Drawing Step := do
  let fs ← fields? ["id", "label", "command", "active", "operator_execution_context", "ui_type",
    "alert"] j
  let label ← fs.text "label"
  let text ← fs.required "command" asText?
  let active ← fs.withDefault "active" true asBool?
  let callMode ← fs.withDefault "operator_execution_context" .execute CallMode.ofJson?
  let uiType ← fs.text "ui_type"
  let alert ← fs.withDefault "alert" false asBool?
  let id ← Drawing.idFrom fs
  pure ⟨id, label, text, active, callMode, uiType, alert⟩

/-- The JSON form of a step. -/
def toJson (s : Step) : Json :=
  .object [("id", .text s.id), ("label", .text s.label), ("command", .text s.text),
    ("active", .bool s.active), ("operator_execution_context", .text s.callMode.context),
    ("ui_type", .text s.uiType), ("alert", .bool s.alert)]

end Step

namespace Action

/-- The action that a JSON value describes. -/
def ofJson (j : Json) : Drawing Action := do
  let fs ← fields? ["id", "label", "description", "macros", "execution_mode", "alert"] j
  let label ← fs.text "label"
  let description ← fs.text "description"
  let grouping ← fs.withDefault "execution_mode" .group Grouping.ofJson?
  let alert ← fs.withDefault "alert" false asBool?
  let steps ← Drawing.listFrom fs "macros" Step.ofJson
  let id ← Drawing.idFrom fs
  pure ⟨id, label, description, steps, grouping, alert⟩

/-- The JSON form of an action. -/
def toJson (a : Action) : Json :=
  .object [("id", .text a.id), ("label", .text a.label), ("description", .text a.description),
    ("macros", .list (a.steps.map Step.toJson)), ("execution_mode", .text a.grouping.word),
    ("alert", .bool a.alert)]

end Action

namespace Place

/-- The place that a JSON value describes. -/
def ofJson? (j : Json) : Option Place := do
  let fs ← fields? ["type", "modes"] j
  let areaType ← fs.required "type" asText?
  let modes ← fs.withDefault "modes" [] (asListOf? asText?)
  pure ⟨areaType, modes⟩

/-- The JSON form of a place. -/
def toJson (p : Place) : Json :=
  .object [("type", .text p.areaType), ("modes", .list (p.modes.map .text))]

end Place

namespace Category

/-- The category that a JSON value describes. -/
def ofJson (j : Json) : Drawing Category := do
  let fs ← fields? ["id", "label", "areas", "actions"] j
  let label ← fs.text "label"
  let places ← fs.withDefault "areas" [] (asListOf? Place.ofJson?)
  let actions ← fs.withDefault "actions" [] (asListOf? asText?)
  let id ← Drawing.idFrom fs
  pure ⟨id, label, places, actions⟩

/-- The JSON form of a category. -/
def toJson (c : Category) : Json :=
  .object [("id", .text c.id), ("label", .text c.label),
    ("areas", .list (c.places.map Place.toJson)), ("actions", .list (c.actions.map .text))]

end Category

namespace Library

/-- The library that a JSON value describes. -/
def ofJson (j : Json) : Drawing Library := do
  let fs ← fields? ["categories", "global_actions", "local_actions", "selected_category"] j
  let categories ← Drawing.listFrom fs "categories" Category.ofJson
  let globals ← Drawing.listFrom fs "global_actions" Action.ofJson
  let locals ← Drawing.listFrom fs "local_actions" Action.ofJson
  let selected ← fs.withDefault "selected_category" none (asOption? asText?)
  pure ⟨categories, globals, locals, selected⟩

/-- The JSON form of a library. -/
def toJson (l : Library) : Json :=
  .object [("categories", .list (l.categories.map Category.toJson)),
    ("global_actions", .list (l.globals.map Action.toJson)),
    ("local_actions", .list (l.locals.map Action.toJson)),
    ("selected_category", match l.selectedCategory with
      | some id => .text id
      | none => .null)]

/-- The library in the text of a file, and the supply after the ids that were drawn for it. -/
def read? (file : String) (supply : IdSupply) : Option (Library × IdSupply) :=
  match readLenient file with
  | .error _ => none
  | .ok j => ofJson j supply

/-- The text of a library's file. -/
def save (l : Library) : String := l.toJson.indented

end Library

end Replay
