import Replay.CommandLine.Options

/-!
# Requests

What the program is asked to do: a task, and the file with the settings if it is not the usual one.
That file may be named in front of the command or behind it; the latter counts.

* `CommandLine.parse` — the request that a command line makes
-/

set_option autoImplicit false

namespace Replay

/-- A request to play an action of a library in a scene (`Play`). -/
structure PlayRequest where
  library : String
  /-- The id or the label of the action. -/
  action : String
  /-- Whether the action is a local one. -/
  isLocal : Bool
  scene : Option String
  /-- Milliseconds after which a render is reported complete. -/
  renderAfter : Option Nat
  /-- Seconds after which waiting is given up. -/
  timeout : Option Nat
  /-- Whether the library is saved with the alerts raised. -/
  saveAlerts : Bool
deriving DecidableEq, Repr

/-- What the program can do (`Cli`'s `Command`). -/
inductive Task
  | play (p : PlayRequest)
  /-- Lists the steps of every action of a library. -/
  | inspect (library : String)
  /-- Lists where the categories of a library are shown. -/
  | visibility (library : String)
  /-- Writes a file with the usual settings. -/
  | initConfig
deriving DecidableEq, Repr

/-- A task, and the path of the settings if they are not at the usual one (`Cli`). -/
structure Request where
  settings : Option String
  task : Task
deriving DecidableEq, Repr

/-- What a command line asks for. -/
inductive CommandLine
  | run (r : Request)
  | help
  | version
deriving DecidableEq, Repr

namespace CommandLine

/-- The option for the settings, which every command takes. -/
def configRule : OptionRule := ⟨"config", some 'c', .path, false⟩

/-- The option for a library. -/
def libraryRule : OptionRule := ⟨"library", some 'l', .path, true⟩

/-- The names of the commands. -/
def commandNames : List String := ["play", "inspect", "visibility", "init-config", "help"]

/-- The options in front of the command. -/
def rootTable : OptionTable := ⟨[configRule], commandNames, true⟩

/-- The options of each command. -/
def rulesOf (command : String) : List OptionRule :=
  if command = "play" then
    [configRule, libraryRule, ⟨"action", some 'a', .text, true⟩, ⟨"local", none, .nothing, false⟩,
      ⟨"scene", some 's', .path, false⟩, ⟨"render-complete-after", none, .count, false⟩,
      ⟨"timeout", none, .count, false⟩, ⟨"save-alerts", none, .nothing, false⟩]
  else if command = "inspect" ∨ command = "visibility" then [configRule, libraryRule]
  else [configRule]

/-- A required option; it is there once no required one is missing. -/
def requiredValue (g : Given) (name : String) : String := (g.lookup name).getD ""

/-- The task that a command with its options means. -/
def taskOf (command : String) (g : Given) : Task :=
  if command = "play" then
    .play
      { library := requiredValue g "library"
        action := requiredValue g "action"
        isLocal := g.has "local"
        scene := g.lookup "scene"
        renderAfter := g.count? "render-complete-after"
        timeout := g.count? "timeout"
        saveAlerts := g.has "save-alerts" }
  else if command = "inspect" then .inspect (requiredValue g "library")
  else if command = "visibility" then .visibility (requiredValue g "library")
  else .initConfig

/-- What the words behind the command for help ask for. -/
def parseHelp : List String → Except UsageFault CommandLine
  | [] => .ok .help
  | name :: rest =>
    if !commandNames.contains name then .error (.unknownWord name)
    else match rest with
      | [] => .ok .help
      | next :: _ => .error (.unknownWord next)

/-- What the words behind a command ask for. -/
def parseCommand (front : Reading) (command : String) (words : List String) :
    Except UsageFault CommandLine :=
  let t : OptionTable := ⟨rulesOf command, [], false⟩
  match t.scan .nothing words with
  | .error fault => .error fault
  | .ok (_, .help) => .ok .help
  | .ok (_, .version) => .ok .version
  | .ok (r, _) =>
    match r.given, front.given with
    | .error fault, _ => .error fault
    | .ok _, .error fault => .error fault
    | .ok g, .ok before =>
      match t.missing? g with
      | some option => .error (.missingOption option)
      | none => .ok (.run ⟨(g.lookup "config").or (before.lookup "config"), taskOf command g⟩)

/-- What a command line asks for. -/
def parse (words : List String) : Except UsageFault CommandLine :=
  match rootTable.scan .nothing words with
  | .error fault => .error fault
  | .ok (_, .help) => .ok .help
  | .ok (_, .version) => .ok .version
  | .ok (_, .all) => .error .missingCommand
  | .ok (front, .command name rest) =>
    if name = "help" then parseHelp rest else parseCommand front name rest

end CommandLine

end Replay
