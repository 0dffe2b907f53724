import Replay.Text.Basic

/-!
# Paths

A path is a text of names with slashes between them. The empty name and a point stand for staying
where one is, two points for the directory above; at a slash in front a path starts at the root.

* `Path.join` — a path from another one
* `Path.names` — the names that are followed one after the other
* `Path.above` — the names on the way to the directory that a path leads into
-/

set_option autoImplicit false

namespace Replay.Path

open Text

/-- Whether a path starts at the root. -/
def isAbsolute (path : String) : Bool := path.toList.head? == some '/'

/-- The path that a second path means, seen from a first one. -/
def join (base path : String) : String :=
  if isAbsolute path ∨ base = "" then path
  else if base.toList.getLast? = some '/' then base ++ path
  else base ++ "/" ++ path

/-- The names in a path. -/
def names (path : String) : List String := (splitAll '/' path.toList).map String.ofList

/-- Whether a name stands for staying where one is. -/
def stays (name : String) : Bool := name == "" || name == "."

/-- Whether a name can be that of something new. -/
def isProper (name : String) : Bool := !stays name && name != ".."

/-- The names in a path up to the last one that is not empty. -/
def named (path : String) : List String :=
  ((names path).reverse.dropWhile fun name => name == "").reverse

/-- The names on the way to the directory that a path leads into, as far as they lead anywhere. -/
def above (path : String) : List String := ((names path).filter fun name => !stays name).dropLast

/-- Whether a path ends with a slash. -/
def endsWithSlash (path : String) : Bool := path.toList.getLast? == some '/'

end Replay.Path
