import Replay.Library.Basic
import Replay.Surface.Basic

/-!
# Hosts

A host is the application in which recorded commands run. The player knows it by a record of
operations on a state of the host's own: what the player may ask, what it may change, and three ways
of having code run, each of which may fail with a text and may change the state even then.
-/

set_option autoImplicit false

namespace Replay

/-- A command ready to be run. -/
structure Invocation where
  command : Command
  callMode : CallMode
  /-- The recorded text without blanks around it. -/
  raw : String
deriving DecidableEq, Repr

namespace Invocation

/-- The invocation of a recorded text (`Invocation`'s `new`). -/
def ofText (text : String) (mode : CallMode) : Invocation :=
  ⟨Command.parse text, mode, String.ofList (Text.trim text.toList)⟩

/-- The text as it is run: a call names its execution context. -/
def rendered (i : Invocation) : String :=
  match i.command with
  | .call c => c.render i.callMode.context
  | _ => i.raw

end Invocation

/-- A script made for one step (`ScriptUnit`). -/
structure Script where
  name : String
  source : String
deriving DecidableEq, Repr

namespace Script

/-- An error report that names the script where it spoke of a text without a name. -/
def blame (s : Script) (report : String) : String :=
  String.ofList (Text.replaceAll "\"<string>\"".toList ("\"" ++ s.name ++ "\"").toList report.toList)

end Script

/-- What a host with states `σ` can do. -/
structure Host (σ : Type) where
  /-- The surface that the user works on (`ambient_context`). -/
  ambient : σ → Surface
  /-- All windows (`surfaces`). -/
  layout : σ → Layout
  setLayout : σ → Layout → σ
  /-- Whether there is an object of a name (`object_exists`). -/
  hasObject : σ → String → Bool
  /-- Whether the object of a name is in the active view layer (`object_in_view_layer`). -/
  showsObject : σ → String → Bool
  /-- The names of the selected objects, in order. -/
  selected : σ → List String
  /-- Selects or deselects the object of a name, if there is one. -/
  select : σ → String → Bool → σ
  deselectAll : σ → σ
  active : σ → Option String
  setActive : σ → Option String → σ
  /-- Runs a command on a surface. -/
  invoke : σ → Invocation → Surface → Except String Unit × σ
  /-- Says whether a condition holds. -/
  evaluate : σ → String → Except String Bool × σ
  runScript : σ → Script → Except String Unit × σ
  /-- Has an area drawn again (`tag_redraw`). -/
  redraw : σ → Nat → σ

end Replay
