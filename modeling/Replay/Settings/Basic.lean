import Replay.Time

/-!
# Settings

What can be set from outside: how playback is paced and nested, and where logs go.
-/

set_option autoImplicit false

namespace Replay

/-- The name of the program. Its directories bear it. -/
def programName : String := "macroplay"

/-- Settings of playback (`PlayerConfig`). -/
structure PlaySettings where
  /-- Milliseconds between a finished render and the resumption that waited for it. -/
  renderResumeDelay : Nat
  /-- Milliseconds between two looks at the timetable. -/
  tickInterval : Nat
  /-- How many loop bodies may run inside each other. -/
  maxNesting : Nat
deriving DecidableEq, Repr

namespace PlaySettings

/-- The usual settings. -/
def usual : PlaySettings := ⟨100, 50, 64⟩

/-- The span between a finished render and a resumption (`render_resume_delay`). -/
def resumeSpan (s : PlaySettings) : Time := Time.ofMillis s.renderResumeDelay

/-- The span between two looks at the timetable, a millisecond at least (`tick_interval`). -/
def tickSpan (s : PlaySettings) : Time := Time.ofMillis (max s.tickInterval 1)

end PlaySettings

/-- Settings of log files (`LoggingConfig`). -/
structure LogSettings where
  /-- Whether logs go to a file at all. -/
  toFile : Bool
  /-- The directory of the log files, if it is not the usual one. -/
  directory : Option String
  /-- How many log files are kept, the present one included. -/
  keep : Nat
deriving DecidableEq, Repr

namespace LogSettings

/-- The usual settings. -/
def usual : LogSettings := ⟨true, none, 5⟩

end LogSettings

/-- All settings (`MacroplayConfig`). -/
structure Settings where
  play : PlaySettings
  log : LogSettings
deriving DecidableEq, Repr

namespace Settings

/-- The usual settings. -/
def usual : Settings := ⟨.usual, .usual⟩

end Settings

end Replay
