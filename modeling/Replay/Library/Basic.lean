import Replay.Instruction
import Replay.Library.Label

/-!
# Libraries of recorded actions

An action is an ordered list of recorded steps; a library holds two collections of actions and the
categories under which global ones are shown. Ids are looked up from the front, so the first action
or step bearing an id is the one it names.

A name in brackets in a docstring is the one that the player itself has for the thing.

* `Library.action?`, `Library.search?` — look-up by id, or by id and then label
* `Library.add`, `Library.remove` — editing; a label that is taken is numbered
* `Library.raiseAlert` — flags an action and one of its steps after a failure
* `Category.visibility` — where a category is shown
-/

set_option autoImplicit false

namespace Replay

/-! ## Steps and actions -/

/-- How an operator is called (`OperatorContext`). -/
inductive CallMode
  /-- It runs at once. -/
  | execute
  /-- It may wait for the user. -/
  | interactive
deriving DecidableEq, Repr

namespace CallMode

/-- The execution context that the host knows a way of calling by. -/
def context : CallMode → String
  | execute => "EXEC_DEFAULT"
  | interactive => "INVOKE_DEFAULT"

/-- The way of calling with a given execution context. -/
def ofContext? (s : String) : Option CallMode :=
  if s = "EXEC_DEFAULT" then some execute
  else if s = "INVOKE_DEFAULT" then some interactive
  else none

end CallMode

/-- How the commands of an action treat the selected objects (`ExecutionMode`). -/
inductive Grouping
  /-- Each command runs once, for all of them. -/
  | group
  /-- Each command runs once for each of them. -/
  | individual
deriving DecidableEq, Repr

namespace Grouping

/-- The word for a grouping in files. -/
def word : Grouping → String
  | group => "GROUP"
  | individual => "INDIVIDUAL"

/-- The word for a grouping in listings. -/
def caption : Grouping → String
  | group => "Group"
  | individual => "Individual"

/-- The grouping that a word in a file means. -/
def ofWord? (s : String) : Option Grouping :=
  if s = "GROUP" then some group
  else if s = "INDIVIDUAL" then some individual
  else none

end Grouping

/-- One recorded step (`Macro`). -/
structure Step where
  id : String
  label : String
  /-- The recorded text: a command for the host or a directive to the player (`command`). -/
  text : String
  /-- Whether playback runs the step at all. -/
  active : Bool
  callMode : CallMode
  /-- The kind of editor the step has to run in; empty if any will do. -/
  uiType : String
  /-- Set on the step at which playback failed. -/
  alert : Bool
deriving DecidableEq, Repr

namespace Step

/-- A step with an id and a text, and all else as usual. -/
def recorded (id text : String) : Step := ⟨id, "", text, true, .execute, "", false⟩

/-- What the step tells the player to do (`Macro`'s `parse`). -/
def instruction (s : Step) : Except DirectiveError Instruction := Instruction.parse s.text

/-- The kind of editor that the step asks for (`required_ui_type`). -/
def requiredType? (s : Step) : Option String := if s.uiType = "" then none else some s.uiType

end Step

/-- A named list of steps. -/
structure Action where
  id : String
  label : String
  description : String
  steps : List Step
  grouping : Grouping
  /-- Set when playback of the action failed. -/
  alert : Bool
deriving DecidableEq, Repr

namespace Action

/-- An action with an id and a label, and no step yet. -/
def titled (id label : String) : Action := ⟨id, label, "", [], .group, false⟩

/-- The place of the first step with an id (`find_macro`). -/
def stepIndex? (a : Action) (id : String) : Option Nat := a.steps.findIdx? fun s => s.id == id

end Action

/-- Applies a function to the first item that satisfies a test. -/
def modifyFirst {α : Type} (p : α → Bool) (f : α → α) : List α → List α
  | [] => []
  | a :: rest => if p a then f a :: rest else a :: modifyFirst p f rest

namespace Action

/-- The action with its flag set, and that of its first step with an id. -/
def withAlert (a : Action) (stepId : String) : Action :=
  { a with
    alert := true
    steps := modifyFirst (fun s => s.id == stepId) (fun s => { s with alert := true }) a.steps }

end Action

/-! ## Categories -/

/-- An editor in which a category is shown, with the modes in which it is (`AreaVisibility`). -/
structure Place where
  areaType : String
  /-- No mode at all stands for every mode. -/
  modes : List String
deriving DecidableEq, Repr

/-- The modes of an editor in which something is shown. -/
inductive ModeFilter
  | all
  | only (mode : String)
deriving DecidableEq, Repr

namespace ModeFilter

/-- The word for a filter in listings. -/
def caption : ModeFilter → String
  | all => "all"
  | only mode => mode

end ModeFilter

/-- A named group of global actions. -/
structure Category where
  id : String
  label : String
  places : List Place
  actions : List String
deriving DecidableEq, Repr

namespace Category

/-- Every editor and mode in which the category is shown, in order. -/
def visibility (c : Category) : List (String × ModeFilter) :=
  c.places.flatMap fun p =>
    if p.modes = [] then [(p.areaType, .all)] else p.modes.map fun mode => (p.areaType, .only mode)

end Category

/-! ## Libraries -/

/-- Which of the two collections of a library an action is in (`ActionType`). -/
inductive Collection
  | globals
  | locals
deriving DecidableEq, Repr

namespace Collection

/-- The name of a collection. -/
def name : Collection → String
  | globals => "global_actions"
  | locals => "local_actions"

/-- The collection that a word means: its name, or the name without the word for actions. -/
def ofWord? (s : String) : Option Collection :=
  if s = "global" ∨ s = "global_actions" then some globals
  else if s = "local" ∨ s = "local_actions" then some locals
  else none

end Collection

/-- All categories and actions (`ActionLibrary`). -/
structure Library where
  categories : List Category
  globals : List Action
  locals : List Action
  selectedCategory : Option String
deriving DecidableEq, Repr

namespace Library

/-- A library without anything. -/
def empty : Library := ⟨[], [], [], none⟩

/-- The actions of a collection. -/
def actions (l : Library) : Collection → List Action
  | .globals => l.globals
  | .locals => l.locals

/-- The library with other actions in a collection. -/
def withActions (l : Library) (c : Collection) (as : List Action) : Library :=
  match c with
  | .globals => { l with globals := as }
  | .locals => { l with locals := as }

/-- The first action with an id. -/
def action? (l : Library) (c : Collection) (id : String) : Option Action :=
  (l.actions c).find? fun a => a.id == id

/-- The library with the first action of an id changed. -/
def modifyAction (l : Library) (c : Collection) (id : String) (f : Action → Action) : Library :=
  l.withActions c (modifyFirst (fun a => a.id == id) f (l.actions c))

/-- The first action with an id, or else the first one with that label (`find_action`). -/
def search? (l : Library) (c : Collection) (idOrLabel : String) : Option Action :=
  match l.action? c idOrLabel with
  | some a => some a
  | none => (l.actions c).find? fun a => a.label == idOrLabel

/-- The action under a label that no other action of the collection has. -/
def relabelled (l : Library) (c : Collection) (a : Action) : Action :=
  { a with label := Label.unused ((l.actions c).map Action.label) a.label }

/-- The library with one more action at the end of a collection (`add_action`). -/
def add (l : Library) (c : Collection) (a : Action) : Library :=
  l.withActions c (l.actions c ++ [l.relabelled c a])

/-- The library without the first action of an id (`remove_action`). -/
def remove (l : Library) (c : Collection) (id : String) : Library :=
  l.withActions c ((l.actions c).eraseP fun a => a.id == id)

/-- The library after a failure of an action at one of its steps (`mark_alert`). -/
def raiseAlert (l : Library) (c : Collection) (actionId stepId : String) : Library :=
  l.modifyAction c actionId fun a => a.withAlert stepId

/-- The category that an id means, failing that the one at an index, failing that the selected one
(`category_id`). -/
def categoryId? (l : Library) (id : String) (index : Option Nat) : Option String :=
  if l.categories.any fun c => c.id == id then some id
  else match index.bind fun i => l.categories[i]? with
    | some c => some c.id
    | none => l.selectedCategory

/-- Where the first category with an id is shown (`category_visibility`). -/
def visibility? (l : Library) (id : String) : Option (List (String × ModeFilter)) :=
  (l.categories.find? fun c => c.id == id).map Category.visibility

end Library

end Replay
