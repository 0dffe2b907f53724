import Replay.Json.Record

/-!
# Surfaces

The host shows windows; a window has one screen, a screen is split into areas of some editor type,
and an area into regions. Commands run on a *surface*: a choice of window, screen, area and region,
each of which may be left open. Ids are looked up from the front.

* `Area.contentRegion?` — the region of an area that takes commands
* `Layout.area?`, `Layout.retype` — look-up and change of an area
* `Layout.latest?` — the newest window whose first area has a type
* `Surface.ofWindow` — the surface of a window's first area
-/

set_option autoImplicit false

namespace Replay

open Json

/-- What a region of an area is for. -/
inductive RegionKind
  /-- The content, which is where commands run. -/
  | window
  | header
  | tools
  | ui
  | other (name : String)
deriving DecidableEq, Repr

namespace RegionKind

/-- The word for a kind of region. -/
def word : RegionKind → String
  | window => "WINDOW"
  | header => "HEADER"
  | tools => "TOOLS"
  | ui => "UI"
  | other name => name

/-- The known kind that a word means. -/
def known? (s : String) : Option RegionKind :=
  if s = "WINDOW" then some window
  else if s = "HEADER" then some header
  else if s = "TOOLS" then some tools
  else if s = "UI" then some ui
  else none

/-- The kind that a JSON value names. Any text is a kind; an object can only name a known one. -/
def ofJson? : Json → Option RegionKind
  | .text s => some ((known? s).getD (other s))
  | j => j.variant?.bind known?

end RegionKind

/-- A region of an area. -/
structure Region where
  id : Nat
  kind : RegionKind
deriving DecidableEq, Repr

/-- An area of a screen, showing one type of editor. -/
structure Area where
  id : Nat
  uiType : String
  regions : List Region
deriving DecidableEq, Repr

/-- What a window shows. -/
structure Screen where
  id : Nat
  areas : List Area
deriving DecidableEq, Repr

/-- A window with its screen. -/
structure Window where
  id : Nat
  screen : Screen
deriving DecidableEq, Repr

/-- All windows, in the order of their creation (`WindowManager`). -/
structure Layout where
  windows : List Window
deriving DecidableEq, Repr

/-- Where a command runs (`SurfaceContext`). -/
structure Surface where
  window : Option Nat
  screen : Option Nat
  area : Option Nat
  region : Option Nat
deriving DecidableEq, Repr

namespace Area

/-- The last content region. -/
def contentRegion? (a : Area) : Option Nat :=
  (a.regions.reverse.find? fun r => r.kind == .window).map Region.id

end Area

namespace Window

/-- The first area of the window's screen. -/
def primaryArea? (w : Window) : Option Area := w.screen.areas.head?

/-- Whether the first area shows a type of editor. -/
def shows (w : Window) (uiType : String) : Bool := w.primaryArea?.any fun a => a.uiType == uiType

end Window

namespace Surface

/-- The surface that leaves everything open. -/
def nowhere : Surface := ⟨none, none, none, none⟩

/-- The content of a window's first area (`for_window`). -/
def ofWindow (w : Window) : Surface :=
  { window := some w.id
    screen := some w.screen.id
    area := w.primaryArea?.map Area.id
    region := w.primaryArea?.bind Area.contentRegion? }

end Surface

namespace Layout

/-- Every area of every window, in order. -/
def areas (l : Layout) : List Area := l.windows.flatMap fun w => w.screen.areas

/-- The first window with an id. -/
def window? (l : Layout) (id : Nat) : Option Window := l.windows.find? fun w => w.id == id

/-- The first area with an id. -/
def area? (l : Layout) (id : Nat) : Option Area := l.areas.find? fun a => a.id == id

/-- The newest window whose first area shows a type of editor (`latest_with_primary_type`). -/
def latest? (l : Layout) (uiType : String) : Option Window :=
  l.windows.reverse.find? fun w => w.shows uiType

/-- Areas with the first one of an id showing another type of editor. -/
def retypeAreas (id : Nat) (uiType : String) : List Area → List Area
  | [] => []
  | a :: rest =>
    if a.id = id then { a with uiType := uiType } :: rest else a :: retypeAreas id uiType rest

/-- Windows with the first area of an id showing another type of editor. -/
def retypeWindows (id : Nat) (uiType : String) : List Window → List Window
  | [] => []
  | w :: rest =>
    if w.screen.areas.any fun a => a.id == id then
      { w with screen := { w.screen with areas := retypeAreas id uiType w.screen.areas } } :: rest
    else w :: retypeWindows id uiType rest

/-- The layout with the first area of an id showing another type of editor. -/
def retype (l : Layout) (id : Nat) (uiType : String) : Layout :=
  ⟨retypeWindows id uiType l.windows⟩

/-- The layout without the windows of an id. -/
def closeWindows (l : Layout) (id : Nat) : Layout :=
  ⟨l.windows.filter fun w => w.id != id⟩

/-- The type of editor in the area of a surface (`area_type`). -/
def typeAt? (l : Layout) (s : Surface) : Option String := (s.area.bind l.area?).map Area.uiType

/-- One window with one three-dimensional view (`default_surfaces`). -/
def single : Layout :=
  ⟨[⟨1, ⟨1, [⟨1, "VIEW_3D", [⟨1, .header⟩, ⟨2, .tools⟩, ⟨3, .ui⟩, ⟨4, .window⟩]⟩]⟩⟩]⟩

end Layout

/-! ## Reading -/

/-- An id of 32 bits. -/
def surfaceId? : Json → Option Nat := asNatBelow? (twoTo 32)

namespace Region

/-- The region that a JSON value describes. -/
def ofJson? (j : Json) : Option Region := do
  let fs ← fields? ["id", "kind"] j
  let id ← fs.required "id" surfaceId?
  let kind ← fs.required "kind" RegionKind.ofJson?
  pure ⟨id, kind⟩

end Region

namespace Area

/-- The area that a JSON value describes. -/
def ofJson? (j : Json) : Option Area := do
  let fs ← fields? ["id", "ui_type", "regions"] j
  let id ← fs.required "id" surfaceId?
  let uiType ← fs.required "ui_type" asText?
  let regions ← fs.withDefault "regions" [] (asListOf? Region.ofJson?)
  pure ⟨id, uiType, regions⟩

end Area

namespace Screen

/-- The screen that a JSON value describes. -/
def ofJson? (j : Json) : Option Screen := do
  let fs ← fields? ["id", "areas"] j
  let id ← fs.required "id" surfaceId?
  let areas ← fs.withDefault "areas" [] (asListOf? Area.ofJson?)
  pure ⟨id, areas⟩

end Screen

namespace Window

/-- The window that a JSON value describes. -/
def ofJson? (j : Json) : Option Window := do
  let fs ← fields? ["id", "screen"] j
  let id ← fs.required "id" surfaceId?
  let screen ← fs.required "screen" Screen.ofJson?
  pure ⟨id, screen⟩

end Window

namespace Layout

/-- The layout that a JSON value describes. -/
def ofJson? (j : Json) : Option Layout := do
  let fs ← fields? ["windows"] j
  let windows ← fs.withDefault "windows" [] (asListOf? Window.ofJson?)
  pure ⟨windows⟩

end Layout

namespace Surface

/-- The surface that a JSON value describes. -/
def ofJson? (j : Json) : Option Surface := do
  let fs ← fields? ["window", "screen", "area", "region"] j
  let window ← fs.withDefault "window" none (asOption? surfaceId?)
  let screen ← fs.withDefault "screen" none (asOption? surfaceId?)
  let area ← fs.withDefault "area" none (asOption? surfaceId?)
  let region ← fs.withDefault "region" none (asOption? surfaceId?)
  pure ⟨window, screen, area, region⟩

end Surface

end Replay
