import Replay.Number.Binary64
import Replay.Time

/-!
# Directives

A directive is a command addressed to the player itself: wait, repeat, select objects, run a script,
wait for a render. A loop holds the fields it was written with; `Loop.repetition` says what they
mean, or which of them is missing.
-/

set_option autoImplicit false

namespace Replay

/-- The fields of the directive that opens a loop (`LoopEvent`). -/
structure Loop where
  /-- The word that says how the loop repeats. -/
  style : String
  condition : Option String
  start : Option Binary64
  stop : Option Binary64
  step : Option Binary64
  count : Option Int
deriving DecidableEq, Repr

/-- How a loop repeats its body (`LoopStatement`). -/
inductive Repetition
  /-- As long as a condition holds. -/
  | whileTrue (condition : String)
  /-- Once for each number from `start` up to `stop`, `step` apart. -/
  | range (start stop step : Binary64)
  /-- A fixed number of times; not at all if that is negative. -/
  | times (count : Int)
deriving DecidableEq, Repr

/-- A change of the selected objects (`SelectObjectEvent`). -/
structure Selection where
  /-- Whether the objects selected before stay selected. -/
  keep : Bool
  /-- Objects to select; those that do not exist are passed over. -/
  objects : List String
  /-- The object to make active; it has to exist. -/
  primary : Option String
deriving DecidableEq, Repr

/-- A command addressed to the player (`EventPayload`). -/
inductive Directive
  /-- Suspends playback for a number of seconds. -/
  | wait (seconds : Binary64)
  | loop (l : Loop)
  | loopEnd
  | select (s : Selection)
  | script (source : String)
  /-- Suspends playback until a render has been reported complete. -/
  | awaitRender
deriving DecidableEq, Repr

/-- What is wrong with the payload of a directive: its text ends too early, is not well formed, or
holds a value of the wrong shape. -/
inductive PayloadFault
  | ended
  | malformed
  | shape
deriving DecidableEq, Repr

/-- Why a directive cannot be followed (`EventError`). -/
inductive DirectiveError
  | malformed (fault : PayloadFault)
  | unknownType (name : String)
  | missingField (name : String)
deriving DecidableEq, Repr

namespace DirectiveError

/-- The wording of an error. -/
def message : DirectiveError → String
  | malformed _ => "malformed event payload: "
  | unknownType name => "unknown event type: " ++ name
  | missingField name => "Loop event is missing field '" ++ name ++ "'"

end DirectiveError

namespace Loop

/-- A loop without any field. -/
def blank : Loop := ⟨"", none, none, none, none, none⟩

/-- A loop that runs its body a number of times (`LoopEvent`'s `repeat`). -/
def counted (n : Int) : Loop := { blank with style := "count_loop", count := some n }

/-- A loop that runs its body as long as a condition holds (`LoopEvent`'s `condition`). -/
def conditional (condition : String) : Loop :=
  { blank with style := "python", condition := some condition }

/-- A field that a style of repetition needs. -/
def need {α : Type} (name : String) (field : Option α) : Except DirectiveError α :=
  match field with
  | some a => .ok a
  | none => .error (.missingField name)

/-- How the loop repeats, or the first missing field (`statement`). A style that is neither
conditional nor a range means a fixed number of times. -/
def repetition (l : Loop) : Except DirectiveError Repetition :=
  if l.style = "python" then (need "PyStatement" l.condition).map .whileTrue
  else if l.style = "count" then
    match need "Startnumber" l.start, need "Endnumber" l.stop, need "Stepnumber" l.step with
    | .ok a, .ok b, .ok c => .ok (.range a b c)
    | .error e, _, _ => .error e
    | _, .error e, _ => .error e
    | _, _, .error e => .error e
  else (need "RepeatCount" l.count).map .times

end Loop

namespace Selection

/-- The object to make active; an empty name means none (`primary`). -/
def main? (s : Selection) : Option String := s.primary.filter fun name => name ≠ ""

end Selection

namespace Directive

/-- How long a directive suspends playback, if it does so for a time (`timer_delay`). -/
def delay? : Directive → Option Time
  | wait seconds => some (Time.ofSeconds seconds)
  | _ => none

/-- The name of a kind of directive in listings (`EventKind`). -/
def kind : Directive → String
  | wait _ => "timer"
  | loop _ => "loop"
  | loopEnd => "end loop"
  | select _ => "select object"
  | script _ => "run script"
  | awaitRender => "render complete"

end Directive

end Replay
