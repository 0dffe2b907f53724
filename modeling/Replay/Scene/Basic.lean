import Replay.Command.Basic
import Replay.Surface.Basic
import Replay.Json.Reader

/-!
# Scenes

The state of a host that lives in memory: named objects with a selection, one of them active at
most; properties with JSON values; a layout of windows, and the surface that the user works on.

* `Properties.set`, `Properties.get?` — properties, kept in the order of their keys
* `Scene.propertyKey` — the key that a property's spelling in a command means
* `Scene.read?` — the scene that a file describes
-/

set_option autoImplicit false

namespace Replay

open Text Json

/-- An object of a scene. -/
structure SceneObject where
  name : String
  /-- Whether the object is part of the active view layer. -/
  inViewLayer : Bool
  selected : Bool
  tags : List String
deriving DecidableEq, Repr

/-! ## Properties -/

/-- Properties by key, in the order of the keys. -/
structure Properties where
  entries : List (String × Json)
deriving Repr

namespace Properties

/-- No property at all. -/
def empty : Properties := ⟨[]⟩

/-- The value of a property. -/
def get? (p : Properties) (key : String) : Option Json := p.entries.lookup key

/-- Entries with one more, in front of the first greater key. -/
def insert (key : String) (value : Json) : List (String × Json) → List (String × Json)
  | [] => [(key, value)]
  | (k, v) :: rest =>
    if key = k then (key, value) :: rest
    else if key < k then (key, value) :: (k, v) :: rest
    else (k, v) :: insert key value rest

/-- The properties with one of them set. -/
def set (p : Properties) (key : String) (value : Json) : Properties :=
  ⟨insert key value p.entries⟩

/-- Properties from pairs, of which a later one replaces an earlier one. -/
def ofList (pairs : List (String × Json)) : Properties :=
  pairs.foldl (fun p entry => p.set entry.1 entry.2) empty

end Properties

/-! ## Scenes -/

/-- The state of a host in memory (`SceneState`). -/
structure Scene where
  objects : List SceneObject
  active : Option String
  properties : Properties
  layout : Layout
  /-- The surface that the user works on. -/
  ambient : Surface
deriving Repr

namespace Scene

/-- A scene without objects and properties, in one window. -/
def blank : Scene :=
  { objects := []
    active := none
    properties := .empty
    layout := .single
    ambient := match Layout.single.windows.head? with
      | some w => .ofWindow w
      | none => .nowhere }

/-- The first object of a name. -/
def object? (s : Scene) (name : String) : Option SceneObject :=
  s.objects.find? fun o => o.name == name

/-- Whether there is an object of a name (`object_exists`). -/
def hasObject (s : Scene) (name : String) : Bool := (s.object? name).isSome

/-- Whether the first object of a name is part of the active view layer (`object_in_view_layer`). -/
def showsObject (s : Scene) (name : String) : Bool :=
  (s.object? name).any fun o => o.inViewLayer

/-- The names of the selected objects, in order. -/
def selected (s : Scene) : List String :=
  (s.objects.filter fun o => o.selected).map SceneObject.name

/-- Objects with the first one of a name selected or not. -/
def selectIn (name : String) (on : Bool) : List SceneObject → List SceneObject
  | [] => []
  | o :: rest =>
    if o.name = name then { o with selected := on } :: rest else o :: selectIn name on rest

/-- The scene with the first object of a name selected or not (`select_object`). -/
def select (s : Scene) (name : String) (on : Bool) : Scene :=
  { s with objects := selectIn name on s.objects }

/-- The scene with every name of the selection deselected once. -/
def deselectAll (s : Scene) : Scene := s.selected.foldl (fun s name => s.select name false) s

/-- The scene with an object of a name; a new one is in the view layer and not selected. -/
def addObject (s : Scene) (name : String) : Scene :=
  if s.hasObject name then s else { s with objects := s.objects ++ [⟨name, true, false, []⟩] }

/-- The key that a spelling of a property means (`property_key`): blanks around it, `bpy.context.`
and then `scene.` in front of it do not count. -/
def propertyKey (spelling : String) : String :=
  let name := trim spelling.toList
  let name := (afterStart? contextStart name).getD name
  String.ofList ((afterStart? "scene.".toList name).getD name)

/-- The value of the property that a spelling means. -/
def property? (s : Scene) (spelling : String) : Option Json :=
  s.properties.get? (propertyKey spelling)

/-- The scene with the property that a spelling means set. -/
def setProperty (s : Scene) (spelling : String) (value : Json) : Scene :=
  { s with properties := s.properties.set (propertyKey spelling) value }

end Scene

/-! ## Reading -/

namespace SceneObject

/-- The object that a JSON value describes. -/
def ofJson? (j : Json) : Option SceneObject := do
  let fs ← fields? ["name", "in_view_layer", "selected", "tags"] j
  let name ← fs.required "name" asText?
  let inViewLayer ← fs.withDefault "in_view_layer" true asBool?
  let selected ← fs.withDefault "selected" false asBool?
  let tags ← fs.withDefault "tags" [] (asListOf? asText?)
  pure ⟨name, inViewLayer, selected, tags⟩

end SceneObject

namespace Properties

/-- The value of a property in a file: all of it denotes something, and it is nested at most 125
deep, two levels being taken up by the scene itself. -/
def value? (j : Json) : Option Json :=
  if j.readable ∧ j.depth ≤ 125 then some j.settled else none

/-- The properties that a JSON value describes. -/
def ofJson? : Json → Option Properties
  | .object members =>
    (members.mapM fun m => (value? m.2).map fun v => (m.1, v)).map ofList
  | _ => none

end Properties

namespace Scene

/-- The scene that a JSON value describes. -/
def ofJson? (j : Json) : Option Scene := do
  let fs ← fields? ["objects", "active", "properties", "surfaces", "ambient"] j
  let objects ← fs.withDefault "objects" [] (asListOf? SceneObject.ofJson?)
  let active ← fs.withDefault "active" none (asOption? asText?)
  let properties ← fs.withDefault "properties" .empty Properties.ofJson?
  let layout ← fs.withDefault "surfaces" .single Layout.ofJson?
  let ambient ← fs.withDefault "ambient" .nowhere Surface.ofJson?
  pure ⟨objects, active, properties, layout, ambient⟩

/-- The scene in the text of a file. -/
def read? (file : String) : Option Scene :=
  match readLenient file with
  | .error _ => none
  | .ok j => ofJson? j

end Scene

end Replay
