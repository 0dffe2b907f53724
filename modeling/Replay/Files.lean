import Replay.Path

/-!
# Files

A tree of files as a value. Files are known by their places, lists of names from the root; paths are
followed from a working directory, and each of their names is looked up in a directory that is
there, also if two points follow it. A directory is there if it has been made or if anything lies in
it.

* `Files.resolve` — the place that a path leads to
* `Files.at?` — what stands at a path
* `Files.read`, `Files.write`, `Files.remove` — single files
* `Files.makeDirectory`, `Files.list` — directories
* `Files.changes` — what is to be done for a tree to become another one
-/

set_option autoImplicit false

namespace Replay

/-- Why something cannot be done with files. -/
inductive FileFault
  | missing
  | inTheWay
  | notDirectory
  | isDirectory
  | notText
  | longName
  | zeroByte
deriving DecidableEq, Repr

namespace FileFault

/-- The wording of a fault. -/
def message : FileFault → String
  | missing => "No such file or directory (os error 2)"
  | inTheWay => "File exists (os error 17)"
  | notDirectory => "Not a directory (os error 20)"
  | isDirectory => "Is a directory (os error 21)"
  | notText => "stream did not contain valid UTF-8"
  | longName => "File name too long (os error 36)"
  | zeroByte => "file name contained an unexpected NUL byte"

end FileFault

/-- What stands at a place. -/
inductive FileNode
  | directory
  | text (content : String)
  /-- A file whose bytes are no text. -/
  | binary
deriving DecidableEq, Repr

/-- What stands at a place, and when it was changed. -/
structure FileEntry where
  place : List String
  node : FileNode
  modified : Nat
deriving DecidableEq, Repr

/-- A tree of files. -/
structure Files where
  /-- The place of the working directory. -/
  here : List String
  entries : List FileEntry
deriving DecidableEq, Repr

namespace Files

/-- A tree without files. -/
def empty (here : List String) : Files := ⟨here, []⟩

/-- What stands at a place. -/
def node? (f : Files) (place : List String) : Option FileNode :=
  match f.entries.find? fun e => e.place == place with
  | some e => some e.node
  | none =>
    if place.isPrefixOf f.here || f.entries.any fun e => place.isPrefixOf e.place then
      some .directory
    else none

/-- The tree with something put at a place. -/
def put (f : Files) (e : FileEntry) : Files :=
  { f with entries := (f.entries.filter fun old => old.place != e.place) ++ [e] }

/-! ## Following paths -/

/-- The place after one more name. -/
def step (place : List String) (name : String) : List String :=
  if Path.stays name then place
  else if name = ".." then place.dropLast
  else place ++ [name]

/-- The place that a name leads to. A name is looked up in a directory, and is not too long. -/
def lookup (f : Files) (place : List String) (name : String) : Except FileFault (List String) :=
  match f.node? place with
  | some .directory =>
    if name.utf8ByteSize ≤ 255 then .ok (step place name) else .error .longName
  | some _ => .error .notDirectory
  | none => .error .missing

/-- The place that names lead to. Nothing needs to stand there. -/
def walk (f : Files) : List String → List String → Except FileFault (List String)
  | place, [] => .ok place
  | place, name :: rest =>
    match f.lookup place name with
    | .ok next => walk f next rest
    | .error fault => .error fault

/-- Where a path starts. -/
def start (f : Files) (path : String) : List String := if Path.isAbsolute path then [] else f.here

/-- Whether a text is no path. -/
def refused? (path : String) : Option FileFault :=
  if path = "" then some .missing
  else if path.toList.contains '\x00' then some .zeroByte
  else if 4096 ≤ path.utf8ByteSize then some .longName
  else none

/-- The place that a path leads to. -/
def resolve (f : Files) (path : String) : Except FileFault (List String) :=
  match refused? path with
  | some fault => .error fault
  | none => f.walk (f.start path) (Path.names path)

/-- The place that names lead to and the last of them, of which only what comes before it has to be
there. Without names that is a point. -/
def aim (f : Files) (start : List String) (names : List String) :
    Except FileFault (List String × String) :=
  let last := names.getLast?.getD "."
  match f.walk start names.dropLast with
  | .ok place => (f.lookup place last).map fun target => (target, last)
  | .error fault => .error fault

/-! ## Reading -/

/-- What stands at a path. -/
def at? (f : Files) (path : String) : Option FileNode :=
  match f.resolve path with
  | .ok place => f.node? place
  | .error _ => none

/-- Whether anything stands at a path. -/
def has (f : Files) (path : String) : Bool := (f.at? path).isSome

/-- The text in the file at a path. -/
def read (f : Files) (path : String) : Except FileFault String :=
  match f.resolve path with
  | .error fault => .error fault
  | .ok place =>
    match f.node? place with
    | some (.text content) => .ok content
    | some .binary => .error .notText
    | some .directory => .error .isDirectory
    | none => .error .missing

/-- The names at a place with the times of their last changes. What lies deeper stands for the
directory that it lies in, which has no such time. -/
def namesAt (f : Files) (place : List String) : List (String × Nat) :=
  (f.entries.filterMap fun e =>
    if place.isPrefixOf e.place then
      match e.place.drop place.length with
      | [] => none
      | [name] => some (name, e.modified)
      | name :: _ => some (name, 0)
    else none).eraseDupsBy fun a b => a.1 == b.1

/-- The names in a directory with the times of their last changes. -/
def list (f : Files) (path : String) : Except FileFault (List (String × Nat)) :=
  match f.resolve path with
  | .error fault => .error fault
  | .ok place =>
    match f.node? place with
    | some .directory => .ok (f.namesAt place)
    | some _ => .error .notDirectory
    | none => .error .missing

/-! ## Single files -/

/-- The tree with a text in the file at a path. A new file needs a directory to lie in. -/
def write (f : Files) (path content : String) : Except FileFault Files :=
  match refused? path with
  | some fault => .error fault
  | none =>
    match f.aim (f.start path) (Path.named path) with
    | .error fault => .error fault
    | .ok (place, name) =>
      if !Path.isProper name || Path.endsWithSlash path || f.node? place == some .directory then
        .error .isDirectory
      else .ok (f.put ⟨place, .text content, 0⟩)

/-- The tree with nothing at a place. The directory around it stays. -/
def erase (f : Files) (place : List String) : Files :=
  let rest := { f with entries := f.entries.filter fun e => e.place != place }
  if (rest.node? place.dropLast).isSome then rest else rest.put ⟨place.dropLast, .directory, 0⟩

/-- The tree without the file at a path; a directory cannot be removed like that. -/
def remove (f : Files) (path : String) : Except FileFault Files :=
  match f.resolve path with
  | .error fault => .error fault
  | .ok place =>
    match f.node? place with
    | some .directory => .error .isDirectory
    | some _ => .ok (f.erase place)
    | none => .error .missing

/-! ## Directories

A directory is made first thing where it is wanted. Only if a directory on the way is missing, the
way is made, and then the directory once more. What has been made stays if making the rest fails.
-/

/-- The tree with a new directory. -/
def make (f : Files) (start names : List String) : Except FileFault Files :=
  match f.aim start names with
  | .error fault => .error fault
  | .ok (place, name) =>
    if !Path.isProper name || (f.node? place).isSome then .error .inTheWay
    else .ok (f.put ⟨place, .directory, 0⟩)

/-- Whether names lead to a directory. -/
def isDirectoryAt (f : Files) (start names : List String) : Bool :=
  match f.walk start names with
  | .ok place => f.node? place == some .directory
  | .error _ => false

/-- What making a directory came to: it does not matter if the directory is there already. -/
def settle (f : Files) (start names : List String) (made : Except FileFault Files) :
    Except FileFault Unit × Files :=
  match made with
  | .ok f => (.ok (), f)
  | .error fault => (if f.isDirectoryAt start names then .ok () else .error fault, f)

/-- Makes a directory, and the way to it if that is missing. -/
def makeAfter (way : Files → Except FileFault Unit × Files) (start names : List String)
    (f : Files) : Except FileFault Unit × Files :=
  match f.make start names with
  | .error .missing =>
    match way f with
    | (.ok (), f) => f.settle start names (f.make start names)
    | failed => failed
  | made => f.settle start names made

/-- Makes the directories on a way of which the names are given backwards. -/
def makeWay (start : List String) : List String → Files → Except FileFault Unit × Files
  | [], f => (.ok (), f)
  | name :: back, f => f |> makeAfter (makeWay start back) start (name :: back).reverse

/-- Makes the directories on the way to the directory that a path leads into, and that one. -/
def makeAbove (path : String) (f : Files) : Except FileFault Unit × Files :=
  makeWay (f.start path) (Path.above path).reverse f

/-- Makes a directory at a path, and those on the way to it. The empty path needs none. -/
def makeDirectory (path : String) (f : Files) : Except FileFault Unit × Files :=
  if path = "" then (.ok (), f)
  else match refused? path with
    | some fault => (.error fault, f)
    | none => f |> makeAfter (makeAbove path) (f.start path) (Path.named path)

/-! ## Changes -/

/-- What is done to a file or a directory. -/
inductive Change
  | write (place : List String) (content : String)
  | make (place : List String)
  | remove (place : List String)
deriving DecidableEq, Repr

/-- What has to be done for a tree to become a later one. -/
def changes (before after : Files) : List Change :=
  (before.entries.filterMap fun e =>
    if (after.entries.any fun new => new.place == e.place) then none else some (.remove e.place)) ++
  after.entries.filterMap fun e =>
    if before.entries.contains e then none
    else match e.node with
      | .text content => some (.write e.place content)
      | .directory => some (.make e.place)
      | .binary => none

end Files

end Replay
