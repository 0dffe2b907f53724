import Replay.Command.Basic
import Replay.Directive.Wire

/-!
# Instructions

The text of a recorded step is a directive to the player if it starts with the marker of directives,
and a command for the host otherwise. Only a directive can be ill formed.
-/

set_option autoImplicit false

namespace Replay

/-- What a recorded text tells the player to do (`MacroCommand`). -/
inductive Instruction
  | plain (c : Command)
  | directive (d : Directive)
deriving DecidableEq, Repr

namespace Instruction

/-- The instruction that a text holds (`classify`). -/
def parse (text : String) : Except DirectiveError Instruction :=
  match Directive.payload? text with
  | some payload => (Directive.ofPayload payload).map .directive
  | none => .ok (.plain (Command.parse text))

/-- The name of a kind of instruction in listings (`EventKind`). -/
def kind : Instruction → String
  | plain _ => "plain"
  | directive d => d.kind

end Instruction

end Replay
