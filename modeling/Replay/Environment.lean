import Replay.Path

/-!
# Environments

Where an application keeps its files: below the directories that the user's environment names, and
otherwise below the home directory. Without a home directory there are no such places.

* `Environment.configDirectory?`, `Environment.dataDirectory?` — the places of an application
-/

set_option autoImplicit false

namespace Replay

/-- What the user's environment says about directories (`ProjectPaths`). -/
structure Environment where
  home : Option String
  /-- Stands for the home directory if that is not named. -/
  profile : Option String
  configHome : Option String
  dataHome : Option String
deriving DecidableEq, Repr

namespace Environment

/-- The home directory (`home_dir`). -/
def home? (e : Environment) : Option String := e.home.or e.profile

/-- The directory of an application below a named one, or else below a place in the home directory
(`xdg_dir`). An empty name does not count. -/
def directory? (e : Environment) (named : Option String) (place application : String) :
    Option String :=
  e.home?.map fun home =>
    Path.join ((named.filter fun s => s ≠ "").getD (Path.join home place)) application

/-- Where an application keeps its settings (`config_dir`). -/
def configDirectory? (e : Environment) (application : String) : Option String :=
  e.directory? e.configHome ".config" application

/-- Where an application keeps its data (`data_dir`). -/
def dataDirectory? (e : Environment) (application : String) : Option String :=
  e.directory? e.dataHome ".local/share" application

/-- Where an application keeps its logs (`log_dir`). -/
def logDirectory? (e : Environment) (application : String) : Option String :=
  (e.dataDirectory? application).map fun directory => Path.join directory "logs"

end Environment

end Replay
