import Replay.CommandLine.Run
import Std.Time.Zoned

/-!
# The program

Reads what a request will look at, runs the request, and carries out what it changes: the only part
that touches files, clocks and the console.
-/

set_option autoImplicit false

namespace Replay.Program

/-- The directories of the user. -/
def environment : IO Environment := do
  return ⟨← IO.getEnv "HOME", ← IO.getEnv "USERPROFILE", ← IO.getEnv "XDG_CONFIG_HOME",
    ← IO.getEnv "XDG_DATA_HOME"⟩

/-- The date and the time of day. -/
def calendar : IO CalendarTime := do
  let now ← Std.Time.PlainDateTime.now
  return ⟨now.date.year.toInt, now.date.month.val.toNat, now.date.day.val.toNat,
    now.time.hour.val.toNat, now.time.minute.val.toNat, now.time.second.val.toNat⟩

/-- A supply of ids that starts anywhere. -/
def supply : IO IdSupply := do
  let bytes ← IO.getRandomBytes 16
  return ⟨bytes.foldl (fun n b => 256 * n + b.toNat) 0⟩

/-- The clock of the machine. No report reaches it. -/
def clock : Clock IO where
  read := do
    let now ← IO.monoNanosNow
    return ⟨now, now, now, now, fun _ => now⟩
  rest _ until' := do
    let now ← IO.monoNanosNow
    IO.sleep ((until' - now + Time.millisecond - 1) / Time.millisecond).toUInt32
    let woken ← IO.monoNanosNow
    return (.rested, ⟨fun _ => woken, woken⟩)

/-- The text of a file, or that it is none, or that there is no file. -/
def node? (path : String) : IO (Option FileNode) := do
  try
    return some (.text (← IO.FS.readFile path))
  catch _ =>
    try
      let _ ← IO.FS.readBinFile path
      return some .binary
    catch _ => return none

/-- The tree with what stands along a path of the machine. -/
def withPath (f : Files) (path : String) : IO Files := do
  let here ← IO.currentDir
  let mut files := f
  let mut place := f.start path
  let mut way := if Path.isAbsolute path then "/" else "."
  for name in Path.names path do
    place := Files.step place name
    way := way ++ "/" ++ name
    match ← (if ← (here / way).isDir then pure (some .directory) else node? way) with
    | some node => files := files.put ⟨place, node, 0⟩
    | none => break
  return files

/-- The tree with the files of a directory of the machine, or with what stands along the way. -/
def withDirectory (f : Files) (path : String) : IO Files := do
  let here ← IO.currentDir
  let mut files ← withPath f path
  if let .ok place := files.resolve path then
    if files.node? place == some .directory then
      for entry in ← (here / path).readDir do
        let data ← entry.path.metadata
        let modified := data.modified.sec.toNat * Time.second + data.modified.nsec.toNat
        let node : FileNode := if data.type == .dir then .directory else .text ""
        files := files.put ⟨place ++ [entry.fileName], node, modified⟩
  return files

/-- The path of a place. -/
def pathOf (place : List String) : String := "/" ++ String.intercalate "/" place

/-- Carries out a change. -/
def carryOut : Files.Change → IO Unit
  | .make place => IO.FS.createDirAll (pathOf place)
  | .remove place => IO.FS.removeFile (pathOf place)
  | .write place content => do
    IO.FS.createDirAll (pathOf place.dropLast)
    IO.FS.writeFile (pathOf place) content

/-- Runs a request, and gives the exit code. -/
def perform (r : Request) : IO UInt32 := do
  let e ← environment
  let here := (Path.names (← IO.currentDir).toString).filter fun name => !Path.stays name
  let mut f := Files.empty here
  for path in r.reads e do
    f ← withPath f path
  if let some directory := r.logDirectory? e f then
    f ← withDirectory f directory
  let (report, after) ← r.run ⟨e, ← calendar, ← supply, clock, twoTo 62⟩ f
  for change in f.changes after do
    carryOut change
  IO.print report.output
  IO.eprint report.errors
  return if report.success then 0 else 1

/-- How the program is called. -/
def usage : List String := [
  "usage: " ++ programName ++ " [--config PATH] COMMAND",
  "commands:",
  "  play --library PATH --action NAME [--local] [--scene PATH]",
  "       [--render-complete-after MS] [--timeout SECONDS] [--save-alerts]",
  "  inspect --library PATH",
  "  visibility --library PATH",
  "  init-config"]

end Replay.Program

/-- The program. -/
def main (args : List String) : IO UInt32 := do
  match Replay.CommandLine.parse args with
  | .error fault =>
    IO.eprintln ("error: " ++ fault.message)
    Replay.Program.usage.forM IO.eprintln
    return 2
  | .ok .help =>
    Replay.Program.usage.forM IO.println
    return 0
  | .ok .version =>
    IO.println (Replay.programName ++ " 0.1.0")
    return 0
  | .ok (.run r) =>
    try
      Replay.Program.perform r
    catch e =>
      IO.eprintln ("Error: " ++ toString e)
      return 1
