import Replay.Calendar
import Replay.Environment
import Replay.Files
import Replay.Settings.Basic

/-!
# Log files

Each run of a component writes a log file of its own, named after the component and the time. Of the
earlier ones only some are kept: the oldest go first.

* `LogFile.name` — the name of a component's log file
* `LogFile.excess` — the log files that are too many
* `LogDirectory.prune` — a directory without them, whatever its entries are
* `LogFile.prune` — a tree of files without them
* `LogSettings.begin` — the files when a run has begun
-/

set_option autoImplicit false

namespace Replay

open Text

namespace LogFile

/-- The name of the log file that a component begins at a time (`log_file_name`). -/
def name (component : String) (t : CalendarTime) : String :=
  component ++ "_" ++ String.ofList t.stamp ++ ".log"

/-- Whether a file is named like a log file of a component. -/
def isOf (component fileName : String) : Bool :=
  (component ++ "_").toList.isPrefixOf fileName.toList &&
    ".log".toList.isSuffixOf fileName.toList

/-- Whether a log file goes before another one: it was changed earlier, or its name is less. -/
def goesBefore {ν τ : Type} [LE ν] [DecidableLE ν] [LE τ] [DecidableLE τ] (a b : ν × τ) : Bool :=
  decide (a.2 ≤ b.2 ∧ (b.2 ≤ a.2 → a.1 ≤ b.1))

/-- The names of the log files that are too many if some number of them is kept, the oldest one
first. -/
def excess {ν τ : Type} [LE ν] [DecidableLE ν] [LE τ] [DecidableLE τ] (keep : Nat)
    (logs : List (ν × τ)) : List ν :=
  ((logs.mergeSort goesBefore).take (logs.length - keep)).map Prod.fst

end LogFile

/-- What is met in a directory under a name. -/
structure DirectoryEntry (ν τ ε : Type) where
  name : ν
  /-- When it was changed, or why that cannot be told. -/
  modified : Except ε τ

/-- A directory as far as log files are removed from it. Its names are `ν`s, the times of changes
`τ`s and what can go wrong `ε`s; a `σ` is the state that the files are in. -/
structure LogDirectory (σ ν τ ε : Type) where
  /-- A name as a text, in which something else stands for what is no text. -/
  text : ν → String
  /-- What is met one after the other while the directory is read. -/
  list : σ → Except ε (List (Except ε (DirectoryEntry ν τ ε)))
  remove : ν → σ → Except ε Unit × σ

namespace LogDirectory

variable {σ ν τ ε : Type} (D : LogDirectory σ ν τ ε)

/-- The log files of a component among what is met in a directory, with their times. The first thing
that cannot be read is the last one that is looked at. -/
def logsAmong (component : String) :
    List (Except ε (DirectoryEntry ν τ ε)) → Except ε (List (ν × τ))
  | [] => .ok []
  | .error fault :: _ => .error fault
  | .ok e :: rest =>
    if LogFile.isOf component (D.text e.name) then
      match e.modified with
      | .ok t => (logsAmong component rest).map fun logs => (e.name, t) :: logs
      | .error fault => .error fault
    else logsAmong component rest

/-- The log files of a component in a directory (`component_logs`). -/
def logs (component : String) (s : σ) : Except ε (List (ν × τ)) :=
  (D.list s).bind (D.logsAmong component)

/-- Removes files, and says which cannot be removed and why. -/
def removeEach : List ν → σ → List (ν × ε) × σ
  | [], s => ([], s)
  | name :: rest, s =>
    match D.remove name s with
    | (.ok (), s) => removeEach rest s
    | (.error fault, s) =>
      let (failed, s) := removeEach rest s
      ((name, fault) :: failed, s)

/-- Removes the log files of a component that are too many (`prune_logs`). What fails is given with
the name that it fails at, or without one if the directory cannot be read. -/
def prune [LE ν] [DecidableLE ν] [LE τ] [DecidableLE τ] (component : String) (keep : Nat) (s : σ) :
    List (Option ν × ε) × σ :=
  match D.logs component s with
  | .error fault => ([(none, fault)], s)
  | .ok logs =>
    let (failed, s) := D.removeEach (LogFile.excess keep logs) s
    (failed.map fun (name, fault) => (some name, fault), s)

end LogDirectory

/-- A directory in a tree of files. -/
def Files.logDirectory (directory : String) : LogDirectory Files String Nat FileFault where
  text := id
  list f := (f.list directory).map fun names => names.map fun (name, t) => .ok ⟨name, .ok t⟩
  remove name f :=
    match f.remove (Path.join directory name) with
    | .ok f => (.ok (), f)
    | .error fault => (.error fault, f)

namespace LogFile

/-- The path of an entry of a directory, or that of the directory itself. -/
def pathIn (directory : String) : Option String → String
  | none => directory
  | some name => Path.join directory name

/-- Removes the log files of a component that are too many. The paths of those that cannot be
removed are given; if there is no directory, it is its path that is given. -/
def prune (component : String) (keep : Nat) (directory : String) (f : Files) :
    List String × Files :=
  let (failures, f) := (Files.logDirectory directory).prune component keep f
  (failures.map fun failure => pathIn directory failure.1, f)

end LogFile

namespace LogSettings

/-- The directory of the log files (`log_dir`). -/
def directoryIn (s : LogSettings) (e : Environment) : String :=
  s.directory.getD ((e.logDirectory? programName).getD ("." ++ programName ++ "/logs"))

/-- Begins a run of a component: there is room for its log file, and it is there
(`init_logging`). -/
def begin (s : LogSettings) (component : String) (e : Environment) (now : CalendarTime)
    (f : Files) : Except FileFault Unit × Files :=
  if s.toFile then
    let directory := s.directoryIn e
    match Files.makeDirectory directory f with
    | (.ok (), f) =>
      let (_, f) := LogFile.prune component (s.keep - 1) directory f
      let path := Path.join directory (LogFile.name component now)
      if f.has path then (.ok (), f)
      else match f.write path "" with
        | .ok f => (.ok (), f)
        | .error fault => (.error fault, f)
    | failed => failed
  else (.ok (), f)

end LogSettings

end Replay
