/-!
# Errors of a scene

What a scene has to say when a command, a condition or a script fails, and how it words it.
-/

set_option autoImplicit false

namespace Replay

/-- Why a scene refuses a command or a condition (`HostError`). -/
inductive SceneError
  /-- No operator has the path. -/
  | unknownOperator (id : String)
  /-- The operator does not run on the surface. -/
  | wrongSurface (id : String)
  /-- The text is neither a literal nor a command. -/
  | invalidText (text : String)
  | emptyCondition
  | undefinedName (name : String)
  /-- The operands of a comparison have no order, or none between them. -/
  | incomparable (relation left right : String)
  | missingArgument (id argument : String)
  | objectExists (name : String)
  | unknownAction (name : String)
  | nothingSelected
  /-- The text of an amount is not a number. -/
  | amountNotNumber (text : String)
  | propertyNotNumber (key : String)
  /-- A line of a script failed; lines are counted from one. -/
  | inScript (line : Nat) (cause : SceneError)
  /-- An error of an operator that is not built in. -/
  | raised (message : String)
deriving DecidableEq, Repr

namespace SceneError

/-- The wording of an error. -/
def message : SceneError → String
  | unknownOperator id => "Calling operator \"bpy.ops." ++ id ++ "\" error, could not be found"
  | wrongSurface id => "Operator bpy.ops." ++ id ++ ".poll() failed, context is incorrect"
  | invalidText text => "invalid syntax: " ++ text
  | emptyCondition => "invalid syntax: empty condition"
  | undefinedName name => "name '" ++ name ++ "' is not defined"
  | incomparable relation left right =>
    "'" ++ relation ++ "' not supported between instances of '" ++ left ++ "' and '" ++ right ++ "'"
  | missingArgument id argument =>
    id ++ "() missing required keyword argument '" ++ argument ++ "'"
  | objectExists name => "Object '" ++ name ++ "' already exists"
  | unknownAction name =>
    "enum \"" ++ name ++ "\" not found in ('TOGGLE', 'SELECT', 'DESELECT', 'INVERT')"
  | nothingSelected => "No objects selected"
  | amountNotNumber text => "amount must be a number, not " ++ text
  | propertyNotNumber key => "property '" ++ key ++ "' is not a number"
  | inScript line cause =>
    "Traceback (most recent call last):\n  File \"<string>\", line " ++
      String.ofList (Nat.toDigits 10 line) ++ ", in <module>\n" ++ cause.message
  | raised message => message

end SceneError

end Replay
