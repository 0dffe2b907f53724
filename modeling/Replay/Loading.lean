import Replay.Environment
import Replay.Files
import Replay.Library.File
import Replay.Scene.Basic
import Replay.Settings.Document

/-!
# Loading

Settings, libraries and scenes are loaded from files, and settings and libraries are saved to them.
A file that cannot be read is told apart from one that does not hold what it should; settings that
are missing are told apart from both.
-/

set_option autoImplicit false

namespace Replay

/-! ## Libraries and scenes -/

/-- Why something is not loaded (`LoadError`). -/
inductive LoadFault
  | unreadable (cause : FileFault)
  | malformed
deriving DecidableEq, Repr

/-- Loads something from the file at a path. -/
def Files.load {α : Type} (f : Files) (path : String) (read : String → Option α) :
    Except LoadFault α :=
  match f.read path with
  | .error cause => .error (.unreadable cause)
  | .ok content =>
    match read content with
    | some a => .ok a
    | none => .error .malformed

namespace Library

/-- Loads a library (`load_library`). -/
def load (f : Files) (path : String) (supply : IdSupply) :
    Except LoadFault (Library × IdSupply) :=
  f.load path fun content => read? content supply

end Library

namespace Scene

/-- Loads a scene (`load_scene`). -/
def load (f : Files) (path : String) : Except LoadFault Scene := f.load path read?

end Scene

namespace Files

/-- Writes a file, and makes the directories on the way to it. -/
def writeBelow (path content : String) (f : Files) : Except FileFault Unit × Files :=
  match makeAbove path f with
  | (.ok (), f) =>
    match f.write path content with
    | .ok f => (.ok (), f)
    | .error fault => (.error fault, f)
  | failed => failed

end Files

/-! ## Settings -/

/-- Why settings are not loaded (`ConfigLoadError`). -/
inductive SettingsFault
  | missing
  | unreadable (cause : FileFault)
  | malformed
deriving DecidableEq, Repr

namespace SettingsFault

/-- The wording of a fault. -/
def message : SettingsFault → String
  | missing => "Config file not found"
  | unreadable cause => "IO error reading config: " ++ cause.message
  | malformed => "Failed to parse config: these are no settings"

end SettingsFault

namespace Settings

/-- The path of the settings if no other one is given (`config_path`). -/
def usualPath (e : Environment) : String :=
  Path.join ((e.configDirectory? programName).getD ("." ++ programName)) "config.toml"

/-- Loads settings (`load_from`). -/
def load (f : Files) (path : String) : Except SettingsFault Settings :=
  if f.has path then
    match f.load path read? with
    | .ok s => .ok s
    | .error (.unreadable cause) => .error (.unreadable cause)
    | .error .malformed => .error .malformed
  else .error .missing

/-- Writes the usual settings to a path at which nothing stands, and says whether it did
(`write_example`). -/
def writeSample (path : String) (f : Files) : Except FileFault Bool × Files :=
  if f.has path then (.ok false, f)
  else
    let (written, f) := Files.writeBelow path sample f
    (written.map fun _ => true, f)

end Settings

end Replay
