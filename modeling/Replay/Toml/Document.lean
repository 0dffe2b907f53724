import Replay.Toml.Value

/-!
# TOML documents

A document is a list of lines: headers of tables, headers of arrays of tables, and keys with values.
Tables are told apart by how they came about, because that decides what may still be added: a table
under its own header is *defined*; one that only lies on the path of a header is *passed*; one that
lies on the path of a dotted key is *dotted*.

* `define`, `append` — what a header does
* `assign` — what a key with a value does
* `read?` — the object that a document describes
-/

set_option autoImplicit false

namespace Replay.Toml

/-- How a table came about. -/
inductive Origin
  | defined
  | passed
  | dotted
deriving DecidableEq, Repr

/-- What a key of a table holds. -/
inductive Node
  | value (j : Json)
  | table (origin : Origin) (entries : List (String × Node))
  /-- An array of tables, the latest one first. -/
  | tables (latestFirst : List (List (String × Node)))

/-- The entries of a table. -/
abbrev Entries := List (String × Node)

/-- Entries with one replaced or added at the end. -/
def putEntry (name : String) (node : Node) : Entries → Entries
  | [] => [(name, node)]
  | (k, n) :: rest => if k = name then (k, node) :: rest else (k, n) :: putEntry name node rest

/-- Changes the table that a path leads to, from the entries of another one. Tables that are missing
on the path come about as `missing`; a dotted key may not pass a defined table. The change is told
how the table came about. -/
def changeAt (missing : Origin) (change : Origin → Entries → Option Entries) :
    List String → Origin → Entries → Option Entries
  | [], origin, entries => change origin entries
  | name :: path, _, entries =>
    match entries.lookup name with
    | none => do
      let inner ← changeAt missing change path missing []
      some (putEntry name (.table missing inner) entries)
    | some (.value _) => none
    | some (.tables []) => none
    | some (.tables (latest :: earlier)) => do
      let inner ← changeAt missing change path .defined latest
      some (putEntry name (.tables (inner :: earlier)) entries)
    | some (.table origin inner) =>
      if missing = .dotted ∧ origin = .defined then none
      else do
        let inner ← changeAt missing change path origin inner
        some (putEntry name (.table origin inner) entries)

/-- The entries after the header of a table, which may have been passed but not defined. -/
def define (name : String) (entries : Entries) : Option Entries :=
  match entries.lookup name with
  | none => some (putEntry name (.table .defined []) entries)
  | some (.table .passed inner) => some (putEntry name (.table .defined inner) entries)
  | some _ => none

/-- The entries after the header of an array of tables: one table more in it. -/
def append (name : String) (entries : Entries) : Option Entries :=
  match entries.lookup name with
  | none => some (putEntry name (.tables [[]]) entries)
  | some (.tables latestFirst) => some (putEntry name (.tables ([] :: latestFirst)) entries)
  | some _ => none

/-- The entries after a key with a value. The key has to be new, and what a dotted key leads to has
to be a dotted table. -/
def assign (isDotted : Bool) (name : String) (j : Json) (origin : Origin) (entries : Entries) :
    Option Entries :=
  if isDotted ≠ (origin = .dotted) then none
  else match entries.lookup name with
    | none => some (putEntry name (.value j) entries)
    | some _ => none

/-- The last part of a path, and the parts in front of it. -/
def splitLast? (path : List String) : Option (List String × String) :=
  path.getLast?.map fun last => (path.dropLast, last)

/-- The entries after a key with a value, the key being a path from here. -/
def assignAt (path : List String) (j : Json) (origin : Origin) (entries : Entries) :
    Option Entries := do
  let (front, name) ← splitLast? path
  changeAt .dotted (assign (decide (front ≠ [])) name j) front origin entries

mutual

/-- The JSON value of a node. -/
def Node.toJson : Node → Json
  | .value j => j
  | .table _ entries => .object (membersOf entries)
  | .tables latestFirst => .list (itemsOf latestFirst)

/-- The members that some entries make up. -/
def membersOf : List (String × Node) → List (String × Json)
  | [] => []
  | (name, n) :: rest => (name, n.toJson) :: membersOf rest

/-- The items that some tables make up, the latest one last. -/
def itemsOf : List (List (String × Node)) → List Json
  | [] => []
  | entries :: rest => itemsOf rest ++ [.object (membersOf entries)]

end

/-! ## Values with parts -/

mutual

/-- A value, with a budget for the recursion and the nesting that is left. -/
def value : Nat → Nat → List Char → Option (Json × List Char)
  | 0, _, _ => none
  | budget + 1, nesting, s =>
    match s with
    | '"' :: _ => (string s).map fun t => (.text (String.ofList t.1), t.2)
    | '\'' :: _ => (string s).map fun t => (.text (String.ofList t.1), t.2)
    | 't' :: 'r' :: 'u' :: 'e' :: rest => some (.bool true, rest)
    | 'f' :: 'a' :: 'l' :: 's' :: 'e' :: rest => some (.bool false, rest)
    | '[' :: rest =>
      if nesting = 0 then none
      else (items budget (nesting - 1) rest).map fun t => (.list t.1, t.2)
    | '\x7b' :: rest =>
      if nesting = 0 then none
      else match skipSpaces rest with
        | '\x7d' :: rest => some (.object [], rest)
        | rest =>
          (pairs budget (nesting - 1) rest []).map fun t => (.object (membersOf t.1), t.2)
    | s => numberOrMoment s

/-- The items of an array up to its closing bracket. -/
def items : Nat → Nat → List Char → Option (List Json × List Char)
  | 0, _, _ => none
  | budget + 1, nesting, s =>
    match skipLines (s.length + 1) s with
    | ']' :: rest => some ([], rest)
    | s => do
      let (j, rest) ← value budget nesting s
      match skipLines (rest.length + 1) rest with
      | ']' :: rest => some ([j], rest)
      | ',' :: rest => do
        let (js, rest) ← items budget nesting rest
        some (j :: js, rest)
      | _ => none

/-- The keys and values of an inline table up to its closing brace, put to those before them. -/
def pairs : Nat → Nat → List Char → Entries → Option (Entries × List Char)
  | 0, _, _, _ => none
  | budget + 1, nesting, s, entries => do
    let (path, rest) ← key s
    let rest ← after '=' rest
    let (j, rest) ← value budget nesting (skipSpaces rest)
    let entries ← assignAt path j .defined entries
    match skipSpaces rest with
    | '\x7d' :: rest => some (entries, rest)
    | ',' :: rest => pairs budget nesting (skipSpaces rest) entries
    | _ => none

end

/-! ## Lines -/

/-- What has been read of a document: its tables, and the path of the one that keys belong to. -/
structure Reading where
  entries : Entries
  path : List String

/-- What follows the end of a line on which nothing but a comment is left. -/
def finishLine (s : List Char) : Option (List Char) :=
  match skipComment (skipSpaces s) with
  | [] => some []
  | s => lineEnd? s

/-- Reads the header of an array of tables whose two brackets have been taken. -/
def arrayHeader (r : Reading) (s : List Char) : Option (Reading × List Char) := do
  let (path, rest) ← key s
  let rest ← after ']' rest
  let rest ← after ']' rest
  let (front, name) ← splitLast? path
  let entries ← changeAt .passed (fun _ => append name) front .defined r.entries
  some (⟨entries, path⟩, rest)

/-- Reads the header of a table whose bracket has been taken. -/
def tableHeader (r : Reading) (s : List Char) : Option (Reading × List Char) := do
  let (path, rest) ← key s
  let rest ← after ']' rest
  let (front, name) ← splitLast? path
  let entries ← changeAt .passed (fun _ => define name) front .defined r.entries
  some (⟨entries, path⟩, rest)

/-- Reads a key with a value. -/
def keyValue (r : Reading) (s : List Char) : Option (Reading × List Char) := do
  let (path, rest) ← key s
  let rest ← after '=' rest
  let (j, rest) ← value (2 * rest.length + 2) depthLimit (skipSpaces rest)
  let entries ← changeAt .passed (assignAt path j) r.path .defined r.entries
  some (⟨entries, r.path⟩, rest)

/-- Reads line after line, with a budget for the lines. -/
def readLines : Nat → Reading → List Char → Option Reading
  | 0, _, _ => none
  | budget + 1, r, s =>
    match skipLines (s.length + 1) s with
    | [] => some r
    | s => do
      let (r, rest) ← (match s with
        | '[' :: '[' :: rest => arrayHeader r rest
        | '[' :: rest => tableHeader r rest
        | s => keyValue r s)
      let rest ← finishLine rest
      readLines budget r rest

/-- The object that a document describes. A byte order mark at its start does not count. -/
def read? (document : String) : Option Json :=
  let s := match document.toList with
    | '\ufeff' :: rest => rest
    | s => s
  (readLines (s.length + 1) ⟨[], []⟩ s).map fun r => .object (membersOf r.entries)

end Replay.Toml
