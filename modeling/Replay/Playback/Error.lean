import Replay.Directive.Basic
import Replay.Number.Decimal

/-!
# Errors of playback

Why playback of an action fails, and how that is worded. Only a missing action has no step to blame.
-/

set_option autoImplicit false

namespace Replay

/-- The first failure of a playback. -/
inductive PlayError
  /-- A directive cannot be read, or lacks a field. -/
  | malformedDirective (text : String) (cause : DirectiveError)
  | missingObject (name : String)
  | missingAction (id : String)
  /-- The host refused a command. -/
  | invocation (text : String) (report : String)
  /-- A script failed. -/
  | script (report : String)
  /-- The host could not tell whether a condition holds. -/
  | condition (condition : String) (report : String)
  /-- The step would play the action list that it is in. -/
  | selfPlay
  | nestingTooDeep (limit : Nat)
  | invalidRange (start stop step : Binary64)
deriving DecidableEq, Repr

namespace PlayError

/-- The wording of an error. -/
def message : PlayError → String
  | malformedDirective text cause => "malformed event in command " ++ text ++ ": " ++ cause.message
  | missingObject name => name ++ " Object doesn't exist in the active view layer"
  | missingAction id => "action " ++ id ++ " does not exist"
  | invocation text report => report ++ "; command: " ++ text
  | script report => report
  | condition text report => "loop condition " ++ text ++ " failed: " ++ report
  | selfPlay => "Don't run Local Play with default properties, this may cause recursion"
  | nestingTooDeep limit =>
    "loop nesting deeper than " ++ String.ofList (Nat.toDigits 10 limit) ++ " levels"
  | invalidRange start stop step =>
    String.ofList ("invalid loop range ".toList ++ FloatFormat.plainText start ++ "..".toList ++
      FloatFormat.plainText stop ++ " by ".toList ++ FloatFormat.plainText step)

end PlayError

end Replay
