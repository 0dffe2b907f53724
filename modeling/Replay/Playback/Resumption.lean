import Replay.Library.Basic
import Replay.Surface.Basic

/-!
# Resumptions

What is left to do of an action: the steps still to run, the counted loops around them, and the
surface they run on. A resumption holds copies of the steps, so editing the library does not change
it.

* `Resumption.start` — the beginning of an action
* `Resumption.proceed`, `Resumption.nested` — the same action with other steps
* `Step.closing?` — the end of a loop
-/

set_option autoImplicit false

namespace Replay

/-- A counted loop that is being run (`LoopFrame`). -/
structure Frame where
  body : List Step
  /-- The rounds still to run, the present one included. -/
  remaining : Int
  /-- The steps behind the loop. -/
  after : List Step
deriving DecidableEq, Repr

/-- What is left to do of an action (`Continuation`). -/
structure Resumption where
  collection : Collection
  actionId : String
  steps : List Step
  /-- The counted loops around the steps, the innermost first (`loops`, where it stands last). -/
  frames : List Frame
  /-- The surface captured at a suspension (`context`). -/
  surface : Option Surface
  /-- Whether the steps are looked through for a wait for a render before they run. -/
  fresh : Bool
  /-- How many bodies of conditional and range loops the steps are in. -/
  depth : Nat
deriving DecidableEq, Repr

namespace Resumption

/-- The beginning of some steps of an action; the inactive ones are left out for good. -/
def start (collection : Collection) (actionId : String) (steps : List Step) : Resumption :=
  ⟨collection, actionId, steps.filter Step.active, [], none, true, 0⟩

/-- Other steps and loops of the same action, at the same depth (`with_macros`). -/
def proceed (r : Resumption) (steps : List Step) (frames : List Frame) : Resumption :=
  { r with steps := steps, frames := frames, fresh := false }

/-- The body of a loop as a whole of its own, one level deeper. -/
def nested (r : Resumption) (body : List Step) : Resumption :=
  { r.proceed body [] with depth := r.depth + 1 }

end Resumption

/-- An action that waits for a render, and the step at which it goes on (`resume_macro_id`). -/
structure RenderWait where
  collection : Collection
  actionId : String
  stepId : String
deriving DecidableEq, Repr

/-! ## Loops among steps -/

/-- What a step is to the nesting of loops. -/
inductive Bracket
  | opens
  | closes
  | neither
deriving DecidableEq, Repr

namespace Step

/-- Whether a step opens a loop or closes one. What cannot be read does neither. -/
def bracket (s : Step) : Bracket :=
  match s.instruction with
  | .ok (.directive (.loop _)) => .opens
  | .ok (.directive .loopEnd) => .closes
  | _ => .neither

/-- Whether a step waits for a render. -/
def awaitsRender (s : Step) : Bool :=
  match s.instruction with
  | .ok (.directive .awaitRender) => true
  | _ => false

/-- The place of the step that closes one loop more than the given number of open ones. -/
def closingFrom : Nat → List Step → Option Nat
  | _, [] => none
  | inner, s :: rest =>
    match s.bracket, inner with
    | .closes, 0 => some 0
    | .closes, inner + 1 => (closingFrom inner rest).map (· + 1)
    | .opens, inner => (closingFrom (inner + 1) rest).map (· + 1)
    | .neither, inner => (closingFrom inner rest).map (· + 1)

/-- The place of the end of a loop among the steps behind its beginning (`find_loop_end`). -/
def closing? (behind : List Step) : Option Nat := closingFrom 0 behind

/-- The step right behind the first wait for a render (what `enqueue_render_wait` looks for). -/
def afterRender? : List Step → Option Step
  | [] => none
  | s :: rest => if s.awaitsRender then rest.head? else afterRender? rest

end Step

end Replay
