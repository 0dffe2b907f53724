import Replay.Library.Basic

/-!
# Listings

What the program prints about a library: the steps of every action, and where every category is
shown.
-/

set_option autoImplicit false

namespace Replay

namespace Listing

/-- A number right-aligned in three columns. -/
def index (n : Nat) : String :=
  let digits := Nat.toDigits 10 n
  String.ofList (List.replicate (3 - digits.length) ' ' ++ digits)

/-- The kind of a step's text. -/
def kindOf (s : Step) : String :=
  match s.instruction with
  | .ok i => i.kind
  | .error _ => "malformed"

/-- The line of a step: its place, a hyphen if it is inactive, its kind, and what its command does
or else its label. -/
def step (place : Nat) (s : Step) : String :=
  "  " ++ index place ++ (if s.active then " " else "-") ++ " [" ++ kindOf s ++ "] " ++
    (Command.summary? s.text).getD s.label

/-- The line of an action in a collection. -/
def actionHead (c : Collection) (a : Action) : String :=
  c.name ++ " " ++ a.label ++ " (" ++ a.id ++ ", " ++ a.grouping.caption ++ ")" ++
    (if a.alert then " [alert]" else "")

/-- The lines of an action and of its steps. -/
def action (c : Collection) (a : Action) : List String :=
  actionHead c a :: a.steps.mapIdx step

/-- The lines of all actions (`inspect`). -/
def actions (l : Library) : List String :=
  [Collection.globals, Collection.locals].flatMap fun c => (l.actions c).flatMap (action c)

/-- The lines of a category and of the places where it is shown. -/
def category (c : Category) : List String :=
  (c.label ++ " (" ++ c.id ++ ")") ::
    c.visibility.map fun v => "  " ++ v.1 ++ " / " ++ v.2.caption

/-- The lines of all categories (`visibility`). -/
def categories (l : Library) : List String := l.categories.flatMap category

end Listing

end Replay
