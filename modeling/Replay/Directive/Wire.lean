import Replay.Directive.Basic
import Replay.Json.Reader
import Replay.Json.Writer
import Replay.Text.Basic

/-!
# The written form of directives

A directive is written `ar.event:` and a JSON object whose member `Type` names its kind. The object
is read strictly and to its end; then its `Type` is looked at; only then its other members are. Of
repeated members the last one counts, and unknown ones are passed over.

* `Directive.payload?` — what stands behind the marker of a directive
* `Directive.ofPayload` — the directive that a payload describes
* `Directive.toCommand` — the command text of a directive
-/

set_option autoImplicit false

namespace Replay

open Text

namespace Directive

/-- The word in front of the colon of a directive (`EVENT_PREFIX`). -/
def marker : List Char := "ar.event".toList

/-- What stands behind the marker and the first colon of a command (`event_json`). -/
def payload? (command : String) : Option (List Char) :=
  match cut? ':' command.toList with
  | some (word, payload) => if word = marker then some payload else none
  | none => none

/-- Whether a command is a directive, well formed or not (`is_event`). -/
def isDirective (command : String) : Bool := (payload? command).isSome

/-! ## Reading -/

/-- A member that may be missing or `null`. -/
def optional {α : Type} (j : Json) (name : String) (read : Json → Option α) :
    Option (Option α) :=
  match j.get? name with
  | none => some none
  | some value => value.asOption? read

/-- A member that has a default if it is missing. -/
def defaulting {α : Type} (j : Json) (name : String) (default : α) (read : Json → Option α) :
    Option α :=
  match j.get? name with
  | none => some default
  | some value => read value

/-- An integer of 64 bits with a sign. -/
def count? : Json → Option Int := Json.asIntWithin? Word.leastInt Word.greatestInt

/-- The fields of a loop. -/
def loop? (j : Json) : Option Loop := do
  let style ← defaulting j "StatementType" "" Json.asText?
  let condition ← optional j "PyStatement" Json.asText?
  let start ← optional j "Startnumber" Json.asNumber?
  let stop ← optional j "Endnumber" Json.asNumber?
  let step ← optional j "Stepnumber" Json.asNumber?
  let count ← optional j "RepeatCount" count?
  some ⟨style, condition, start, stop, step, count⟩

/-- The fields of a selection. -/
def selection? (j : Json) : Option Selection := do
  let keep ← defaulting j "KeepSelection" false Json.asBool?
  let objects ← defaulting j "Objects" [] (Json.asListOf? Json.asText?)
  let primary ← optional j "Object" Json.asText?
  some ⟨keep, objects, primary⟩

/-- The reading rule of each type of directive; nothing for an unknown type (`KNOWN_TYPES`). -/
def reader? (type : String) : Option (Json → Option Directive) :=
  if type = "Timer" then some fun j => ((j.get? "Time").bind Json.asNumber?).map wait
  else if type = "Loop" then some fun j => (loop? j).map loop
  else if type = "EndLoop" then some fun _ => some loopEnd
  else if type = "Select Object" then some fun j => (selection? j).map select
  else if type = "Run Script" then
    some fun j => ((j.get? "ScriptText").bind Json.asText?).map script
  else if type = "Render Complete" then some fun _ => some awaitRender
  else none

/-- The directive that a JSON value describes. -/
def ofJson (j : Json) : Except DirectiveError Directive :=
  match (j.get? "Type").bind Json.asText? with
  | none => .error (.unknownType "<missing>")
  | some type =>
    match reader? type with
    | none => .error (.unknownType type)
    | some read =>
      match read j with
      | some d => .ok d
      | none => .error (.malformed .shape)

/-- The directive that a payload describes (`from_json`). -/
def ofPayload (payload : List Char) : Except DirectiveError Directive :=
  match Json.document false 128 payload with
  | .error .ended => .error (.malformed .ended)
  | .error .malformed => .error (.malformed .malformed)
  | .ok j => ofJson j

/-! ## Writing -/

/-- A member that is left out if it has no value. -/
def member {α : Type} (name : String) (value : Option α) (write : α → Json) :
    List (String × Json) :=
  match value with
  | some a => [(name, write a)]
  | none => []

/-- The JSON form of a directive. -/
def toJson : Directive → Json
  | wait seconds => .object [("Type", .text "Timer"), ("Time", .float seconds)]
  | loop l =>
    .object ([("Type", .text "Loop"), ("StatementType", .text l.style)] ++
      member "PyStatement" l.condition .text ++ member "Startnumber" l.start .float ++
      member "Endnumber" l.stop .float ++ member "Stepnumber" l.step .float ++
      member "RepeatCount" l.count .int)
  | loopEnd => .object [("Type", .text "EndLoop")]
  | select s =>
    .object ([("Type", .text "Select Object"), ("KeepSelection", .bool s.keep),
      ("Objects", .list (s.objects.map .text))] ++ member "Object" s.primary .text)
  | script source => .object [("Type", .text "Run Script"), ("ScriptText", .text source)]
  | awaitRender => .object [("Type", .text "Render Complete")]

/-- The command text of a directive. -/
def toCommand (d : Directive) : String :=
  String.ofList (marker ++ ':' :: d.toJson.write .compact 0)

end Directive

end Replay
