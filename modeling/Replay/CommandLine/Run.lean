import Replay.CommandLine.Listing
import Replay.CommandLine.Request
import Replay.Loading
import Replay.LogFile
import Replay.Scene.Stage
import Replay.Watch.Basic

/-!
# Runs of the program

A run changes files and leaves a report: what is printed, what is complained about, and whether all
went well. Settings are written without being loaded first. For every other task the settings are
loaded, then a log file is begun, and only then is the task done.

* `Request.run` — the run that a request leads to
-/

set_option autoImplicit false

namespace Replay

/-- What a run of the program says. -/
structure Report where
  /-- Whether all went well. -/
  success : Bool
  printed : List String
  complaints : List String
deriving DecidableEq, Repr

/-- Why a task is not done. -/
inductive TaskError
  | settings (path : String) (fault : SettingsFault)
  | logging (fault : FileFault)
  | load (path : String) (fault : LoadFault)
  | create (fault : FileFault)
  | unknownAction (collection : Collection) (name : String)
  | incomplete (action : String)
deriving DecidableEq, Repr

namespace TaskError

/-- The wording of an error. -/
def message : TaskError → String
  | settings path fault => "Failed to load config " ++ path ++ ": " ++ fault.message
  | logging fault => "Failed to initialize logging\n\nCaused by:\n    " ++ fault.message
  | load path (.unreadable cause) => "failed to read " ++ path ++ ": " ++ cause.message
  | load path .malformed => "failed to parse " ++ path ++ ": not of the expected form"
  | create fault => fault.message
  | unknownAction collection name => "No " ++ collection.name ++ " action named " ++ name
  | incomplete action => "Playback of " ++ action ++ " did not complete"

end TaskError

namespace Report

/-- The report of a task that has been done. -/
def done (printed : List String) : Report := ⟨true, printed, []⟩

/-- The report of a task that has not been done. -/
def failed (printed : List String) (e : TaskError) : Report :=
  ⟨false, printed, ["Error: " ++ e.message]⟩

/-- All that is printed. -/
def output (r : Report) : String := String.join (r.printed.map fun line => line ++ "\n")

/-- All that is complained about. -/
def errors (r : Report) : String := String.join (r.complaints.map fun line => line ++ "\n")

end Report

/-- What a run of the program starts from, besides its files. -/
structure Setting (m : Type → Type) where
  environment : Environment
  /-- When the run begins. -/
  began : CalendarTime
  supply : IdSupply
  clock : Clock m
  /-- How long a run may last, in loops and in looks. -/
  budget : Nat

namespace PlayRequest

/-- The collection that the action is looked up in. -/
def collection (p : PlayRequest) : Collection := if p.isLocal then .locals else .globals

/-- How the watch over suspended steps is kept. -/
def watchOptions (p : PlayRequest) (s : PlaySettings) : WatchOptions :=
  { interval := s.tickSpan
    renderSpan := p.renderAfter.map Time.ofMillis
    timeout := p.timeout.map fun n => n * Time.second }

/-- What has to be loaded: the library and the scene. -/
def load (p : PlayRequest) (f : Files) (supply : IdSupply) : Except TaskError (Library × Stage) :=
  match Library.load f p.library supply with
  | .error fault => .error (.load p.library fault)
  | .ok (library, _) =>
    match p.scene with
    | none => .ok (library, .ofScene .blank)
    | some path =>
      match Scene.load f path with
      | .error fault => .error (.load path fault)
      | .ok scene => .ok (library, .ofScene scene)

/-- The report on what has been played, and the files with the alerts raised if they are to be
saved. -/
def finish (p : PlayRequest) (f : Files) (success : Bool) (s : Session Stage) : Report × Files :=
  let printed := s.host.journal.map JournalEntry.command
  let (saved, f) :=
    if p.saveAlerts then Files.writeBelow p.library s.library.save f else (.ok (), f)
  match saved with
  | .error fault => (.failed printed (.load p.library (.unreadable fault)), f)
  | .ok () => (if success then .done printed else .failed printed (.incomplete p.action), f)

/-- Whether a watch ended well: nothing failed, and it was not given up. -/
def isSuccess (w : Watch) : Bool := w.failures.isEmpty && !w.timedOut

/-- Plays the action of an id, and what it leaves suspended. -/
def playOut {m : Type → Type} [Monad m] (p : PlayRequest) (t : Setting m) (settings : PlaySettings)
    (f : Files) (id : String) (s : Session Stage) : m (Report × Files) := do
  let readings ← t.clock.read
  let rig : Rig Stage := ⟨Stage.host, settings, readings.entries⟩
  match s.play rig t.budget p.collection id with
  | .done .finished s => pure (p.finish f true s)
  | .failed _ s => pure (p.finish f false s)
  | .exhausted => pure (p.finish f false s)
  | .done .suspended s =>
    match ← Watch.start t.clock rig t.budget (p.watchOptions settings) true t.budget s with
    | .done w s => pure (p.finish f (isSuccess w) s)
    | .failed _ s => pure (p.finish f false s)
    | .exhausted => pure (p.finish f false s)

/-- Plays an action (`play`). -/
def run {m : Type → Type} [Monad m] (p : PlayRequest) (t : Setting m) (settings : PlaySettings)
    (f : Files) : m (Report × Files) :=
  match p.load f t.supply with
  | .error e => pure (.failed [] e, f)
  | .ok (library, stage) =>
    match library.search? p.collection p.action with
    | none => pure (.failed [] (.unknownAction p.collection p.action), f)
    | some action => p.playOut t settings f action.id (.begin stage library)

end PlayRequest

namespace Request

/-- Where the settings of a request are. -/
def settingsPath (r : Request) (e : Environment) : String := r.settings.getD (Settings.usualPath e)

/-- Writes the usual settings, unless something is there already (`init_config`). -/
def initConfig (path : String) (f : Files) : Report × Files :=
  match Settings.writeSample path f with
  | (.error fault, f) => (.failed [] (.create fault), f)
  | (.ok true, f) => (⟨true, [], ["Config file created at: " ++ path]⟩, f)
  | (.ok false, f) =>
    (⟨true, [], ["Config file already exists at " ++ path ++
      ". Edit it manually or delete it to create a new one."]⟩, f)

/-- The settings of a request; the usual ones if there is no file with others (`load_config`). -/
def settingsOf (path : String) (f : Files) : Except TaskError Settings :=
  match Settings.load f path with
  | .ok s => .ok s
  | .error .missing => .ok .usual
  | .error fault => .error (.settings path fault)

/-- The directory of the log files that a request will look into. -/
def logDirectory? (r : Request) (e : Environment) (f : Files) : Option String :=
  match settingsOf (r.settingsPath e) f with
  | .ok s => if s.log.toFile then some (s.log.directoryIn e) else none
  | .error _ => none

/-- The files that a request will read. -/
def reads (r : Request) (e : Environment) : List String :=
  r.settingsPath e :: match r.task with
    | .play p => p.library :: p.scene.toList
    | .inspect path => [path]
    | .visibility path => [path]
    | .initConfig => []

/-- Lists something of a library. -/
def listing (path : String) (supply : IdSupply) (lines : Library → List String) (f : Files) :
    Report :=
  match Library.load f path supply with
  | .error fault => .failed [] (.load path fault)
  | .ok (library, _) => .done (lines library)

/-- Does a task once the settings are known. -/
def perform {m : Type → Type} [Monad m] (t : Setting m) (settings : Settings) (f : Files) :
    Task → m (Report × Files)
  | .play p => p.run t settings.play f
  | .inspect path => pure (listing path t.supply Listing.actions f, f)
  | .visibility path => pure (listing path t.supply Listing.categories f, f)
  | .initConfig => pure (.done [], f)

/-- The run that a request leads to (`main`). -/
def run {m : Type → Type} [Monad m] (r : Request) (t : Setting m) (f : Files) :
    m (Report × Files) :=
  let path := r.settingsPath t.environment
  match r.task with
  | .initConfig => pure (initConfig path f)
  | task =>
    match settingsOf path f with
    | .error e => pure (.failed [] e, f)
    | .ok settings =>
      match settings.log.begin "cli" t.environment t.began f with
      | (.error fault, f) => pure (.failed [] (.logging fault), f)
      | (.ok (), f) => perform t settings f task

end Request

end Replay
