import Replay.Settings.Basic
import Replay.Json.Record
import Replay.Toml.Document

/-!
# Settings files

Settings are kept in a TOML document with a table for playback and one for logs. What is left out
has its usual value, and what is unknown is passed over.

* `Settings.read?` — the settings that a document describes
* `Settings.sample` — a document with the usual settings
-/

set_option autoImplicit false

namespace Replay

open Json

/-- A number of 64 bits. -/
def wordNat? : Json → Option Nat := asNatBelow? (twoTo 64)

namespace PlaySettings

/-- The names of the fields, in order. -/
def fieldNames : List String := ["render_resume_delay_ms", "tick_interval_ms", "max_nesting_depth"]

/-- The settings in some fields. -/
def ofFields? (fs : Fields) : Option PlaySettings := do
  let delay ← fs.withDefault "render_resume_delay_ms" usual.renderResumeDelay wordNat?
  let interval ← fs.withDefault "tick_interval_ms" usual.tickInterval wordNat?
  let nesting ← fs.withDefault "max_nesting_depth" usual.maxNesting wordNat?
  pure ⟨delay, interval, nesting⟩

/-- The settings that a JSON record describes. -/
def ofJson? (j : Json) : Option PlaySettings := (fields? fieldNames j).bind ofFields?

end PlaySettings

namespace LogSettings

/-- The names of the fields, in order. -/
def fieldNames : List String := ["file", "dir", "keep"]

/-- The settings in some fields. -/
def ofFields? (fs : Fields) : Option LogSettings := do
  let toFile ← fs.withDefault "file" usual.toFile asBool?
  let directory ← fs.withDefault "dir" none fun j => j.asText?.map some
  let keep ← fs.withDefault "keep" usual.keep wordNat?
  pure ⟨toFile, directory, keep⟩

end LogSettings

namespace Settings

/-- The fields of a table in a document. An array stands for the fields in order; what it has beyond
them is passed over. -/
def tableFields? (names : List String) : Json → Option Fields
  | .list items => fields? names (.list (items.take names.length))
  | j => fields? names j

/-- The settings that a document describes, from its value. -/
def ofDocument? (j : Json) : Option Settings := do
  let fs ← tableFields? ["player", "logging"] j
  let play ← fs.withDefault "player" .usual fun t =>
    (tableFields? PlaySettings.fieldNames t).bind PlaySettings.ofFields?
  let log ← fs.withDefault "logging" .usual fun t =>
    (tableFields? LogSettings.fieldNames t).bind LogSettings.ofFields?
  pure ⟨play, log⟩

/-- The settings that the text of a document describes. -/
def read? (document : String) : Option Settings := (Toml.read? document).bind ofDocument?

/-- The lines of a document with the usual settings and a comment on each of them. -/
def sampleLines : List String := [
  "# " ++ programName ++ " configuration", "", "[player]",
  "# Delay before an action resumes after a render finished", "render_resume_delay_ms = 100",
  "# Driver loop cadence", "tick_interval_ms = 50",
  "# Deepest allowed nesting of loop bodies", "max_nesting_depth = 64", "", "[logging]",
  "# Also write logs to <data_dir>/logs", "file = true",
  "# Number of log files kept", "keep = 5"]

/-- A document with the usual settings (`EXAMPLE_CONFIG`). -/
def sample : String := String.join (sampleLines.map fun line => line ++ "\n")

end Settings

end Replay
