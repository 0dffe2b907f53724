import Replay.Surface.Basic

/-!
# Targets

A step may ask for a type of editor. The surface it runs on is its base surface if that shows the
type, else the newest window whose first area does, and only if there is none, the base surface with
its area *borrowed*: switched to the type until the step is over. In each case the region is the
content of the chosen area, if it has one.

* `Layout.aim` — the target of a step, and the layout while it runs
* `Layout.release` — the layout after it
-/

set_option autoImplicit false

namespace Replay

/-- The surface chosen for one step (`ResolvedContext`). -/
structure Target where
  surface : Surface
  /-- An area that was switched, and the type it showed before (`coerced`). -/
  borrowed : Option (Nat × String)
deriving DecidableEq, Repr

namespace Target

/-- A surface with the content of its area as region, if the area has one. -/
def onContent (l : Layout) (s : Surface) : Surface :=
  match (s.area.bind l.area?).bind Area.contentRegion? with
  | some region => { s with region := some region }
  | none => s

end Target

namespace Layout

/-- The surface for a step on a base surface, before its region is chosen, and the layout while the
step runs. -/
def choose (l : Layout) (base : Surface) (required : Option String) : Layout × Target :=
  match required, base.area, l.typeAt? base with
  | some required, some area, some current =>
    if current = required then (l, ⟨base, none⟩)
    else match l.latest? required with
      | some w => (l, ⟨Surface.ofWindow w, none⟩)
      | none => (l.retype area required, ⟨base, some (area, current)⟩)
  | _, _, _ => (l, ⟨base, none⟩)

/-- The target of a step on a base surface, and the layout while the step runs (`resolve`). -/
def aim (l : Layout) (base : Surface) (required : Option String) : Layout × Target :=
  let (during, t) := l.choose base required
  (during, { t with surface := Target.onContent during t.surface })

/-- The layout after a step: a borrowed area shows what it showed before (`restore`). -/
def release (l : Layout) (t : Target) : Layout :=
  match t.borrowed with
  | some (area, uiType) => l.retype area uiType
  | none => l

end Layout

end Replay
