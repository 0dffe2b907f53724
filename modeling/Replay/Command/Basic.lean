import Replay.Text.Basic
import Replay.Text.Letter

/-!
# Commands

A recorded command is a line in the scripting language of the host application. Three kinds are told
apart: a call of an operator, an assignment to a property of the host's context, and anything else,
which is kept as an expression. Arguments of a call are not evaluated: they stay the text between
the brackets, cut at the commas in front of which a new `name=` begins.

A name in brackets in a docstring is the one that the player itself has for the thing.

* `Command.parse` — the kind and parts of a command; total, every text is a command
* `Arguments.keywords` — the `name=value` texts of an argument list
* `Call.render` — the text of a call with an execution context as its first argument
* `Command.summary?` — a short name for listings
-/

set_option autoImplicit false

namespace Replay

open Text

/-- A call of an operator, as in `bpy.ops.object.select_all(action='SELECT')` (`OperatorCall`). -/
structure Call where
  /-- What stands before the last point of the operator's path (`module`). -/
  family : String
  /-- What stands after it. -/
  name : String
  /-- The text of the arguments in front of the first named one. -/
  positional : String
  /-- The named arguments with the text of their values, in order (`args`). -/
  named : List (String × String)
deriving DecidableEq, Repr

/-- A command that is not addressed to the player itself (`PlainCommand`). -/
inductive Command
  | call (c : Call)
  | assign (path : List String) (value : String)
  | expression (text : String)
deriving DecidableEq, Repr

/-- Where the path of an operator starts (`OPERATOR_PREFIX`). -/
def operatorStart : List Char := "bpy.ops.".toList

/-- Where the path of a context property starts (`CONTEXT_PREFIX`). -/
def contextStart : List Char := "bpy.context.".toList

/-- Where the path of a data block starts (`DATA_PREFIX`). -/
def dataStart : List Char := "bpy.data.".toList

/-! ## Argument lists -/

namespace Arguments

/-- Whether a text is an identifier: a letter or underscore, then letters, numbers or underscores
(`is_identifier`). -/
def isIdentifier : List Char → Bool
  | [] => false
  | c :: rest =>
    (c == '_' || isLetter c) && rest.all fun d => d == '_' || isLetter d || isNumber d

/-- Whether a piece between commas begins a named argument (`starts_property`). -/
def beginsNamed (piece : List Char) : Bool :=
  match cut? '=' piece with
  | some (name, _) => isIdentifier (trim name)
  | none => false

/-- The named arguments that some pieces make up, each with the pieces that belong to it, and the
pieces before the first one (the loop of `extract_properties`). -/
def gather : List (List Char) → List (List Char) × List (List Char)
  | [] => ([], [])
  | piece :: rest =>
    let (complete, loose) := gather rest
    if beginsNamed piece then (trim (join [','] (piece :: loose)) :: complete, [])
    else (complete, piece :: loose)

/-- The texts of the named arguments in an argument list (`extract_properties`). -/
def keywords (arguments : List Char) : List (List Char) := (gather (splitAll ',' arguments)).1

/-- The text in front of the first named argument, without the commas and blanks behind it
(`split_positional`). -/
def positional (arguments : List Char) : List Char :=
  let pieces := splitAll ',' arguments
  let leading := pieces.takeWhile fun piece => !beginsNamed piece
  let upTo := if leading.length < pieces.length then leading ++ [[]] else leading
  trimEnd (dropEndWhile (· == ',') (trim (join [','] upTo)))

/-- Name and value of a named argument. -/
def pair? (argument : List Char) : Option (String × String) :=
  (cut? '=' argument).map fun parts =>
    (String.ofList (trim parts.1), String.ofList (trim parts.2))

end Arguments

/-! ## Calls -/

namespace Call

/-- The operator's path. -/
def id (c : Call) : String := c.family ++ "." ++ c.name

/-- The text of the first argument of a name (`arg`). -/
def argument? (c : Call) (name : String) : Option String := c.named.lookup name

/-- The first argument of a name without the quotes around it (`string_arg`). -/
def textArgument? (c : Call) (name : String) : Option String :=
  (c.argument? name).map fun value => String.ofList (unquote value.toList)

/-- Whether the named arguments are as many as the expected ones, and each of those is among them
(`has_exactly_args`). -/
def hasExactly (c : Call) (expected : List (String × String)) : Bool :=
  c.named.length == expected.length &&
    expected.all fun e => c.argument? e.1 == some e.2

/-- The text of the call with an execution context in front of its arguments
(`render_with_context`). -/
def render (c : Call) (context : String) : String :=
  let quoted := "\"" ++ context ++ "\""
  let leading := if c.positional = "" then [quoted] else [quoted, c.positional]
  let parts := leading ++ c.named.map fun a => a.1 ++ "=" ++ a.2
  String.ofList operatorStart ++ c.id ++ "(" ++
    String.ofList (join [',', ' '] (parts.map String.toList)) ++ ")"

/-- A call, read from a trimmed text (`parse_operator`). Its path is not trimmed around the last
point. -/
def parse? (text : List Char) : Option Call :=
  match afterStart? operatorStart text with
  | none => none
  | some rest =>
    match cut? '(' rest with
    | none => none
    | some (path, tail) =>
      match beforeEnd? [')'] (trimEnd tail), cutLast? '.' (trim path) with
      | some arguments, some (family, name) =>
        if family = [] ∨ name = [] then none
        else some
          { family := String.ofList family
            name := String.ofList name
            positional := String.ofList (Arguments.positional arguments)
            named := (Arguments.keywords arguments).filterMap Arguments.pair? }
      | _, _ => none

end Call

/-! ## Assignments -/

/-- Left and right side of the first equals sign that is not part of a comparison; `before` is the
character in front of the text (`split_assignment`). -/
def cutAssignment? (before : Option Char) : List Char → Option (List Char × List Char)
  | [] => none
  | c :: rest =>
    if c = '=' ∧ before ≠ some '=' ∧ before ≠ some '!' ∧ before ≠ some '<' ∧ before ≠ some '>' ∧
        rest.head? ≠ some '=' then
      some ([], rest)
    else (cutAssignment? (some c) rest).map fun sides => (c :: sides.1, sides.2)

namespace Command

/-- What a command text says. -/
def parse (command : String) : Command :=
  let text := trim command.toList
  match Call.parse? text with
  | some c => .call c
  | none =>
    match (afterStart? contextStart text).bind (cutAssignment? none) with
    | some (left, right) =>
      .assign ((splitAll '.' left).map fun step => String.ofList (trim step))
        (String.ofList (trim right))
    | none => .expression (String.ofList text)

/-! ## Listings -/

/-- The value of an assignment as it is listed: a data block by its name, all else as it stands. -/
def summaryOfValue (value : List Char) : List Char :=
  match afterStart? dataStart value with
  | none => value
  | some _ =>
    let key := ((splitAll '[' value).getLast?).getD value
    unquote (dropEndWhile (· == ']') key)

/-- A short name for a command: the path of an operator, the property and value of an assignment,
the last two steps of a context path (`display_name`). Other commands have none. -/
def summary? (command : String) : Option String :=
  let text := trim command.toList
  match afterStart? operatorStart text with
  | some _ => (Call.parse? text).map Call.id
  | none =>
    match afterStart? contextStart text with
    | none => none
    | some rest =>
      match cutAssignment? none rest with
      | some (left, right) =>
        let property := ((splitAll '.' (trim left)).getLast?).getD []
        some (String.ofList (property ++ " = ".toList ++ summaryOfValue (trim right)))
      | none =>
        let steps := splitAll '.' text
        some (String.ofList (join ['.'] (steps.drop (steps.length - 2))))

end Command

end Replay
