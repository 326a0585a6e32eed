import QuotePress.CommandLine.Program
import Std.Time.DateTime.Timestamp

/-! # The program on real files

Everything is decided elsewhere; this module only reads arguments, environment, clock and files,
and prints. -/
namespace QuotePress

def FileFault.ofSystem : IO.Error → FileFault
  | .noFileOrDirectory .. => .notFound
  | _ => .refused

def FileFault.catching {α : Type} (action : IO α) : IO (Except FileFault α) := do
  try
    return .ok (← action)
  catch e =>
    return .error (.ofSystem e)

instance : FileSystem IO where
  probe path := do
    match ← FileFault.catching (IO.FS.realPath path.text) with
    | .ok _ => return .ok true
    | .error .notFound => return .ok false
    | .error f => return .error f
  readText path := FileFault.catching (IO.FS.readFile path.text)
  makeDirectories path := do
    if path.text.isEmpty then return .ok ()
    else FileFault.catching (IO.FS.createDirAll path.text)
  writeText path text := FileFault.catching (IO.FS.writeFile path.text text)
  removeFile path := FileFault.catching (IO.FS.removeFile path.text)

def readClock : IO Timestamp := do
  let now ← Std.Time.Timestamp.now
  return (Timestamp.ofEpoch? now.toNanosecondsSinceUnixEpoch.val).getD default

def runCommand (command : Command) : IO UInt32 := do
  let dataDirectory ← IO.getEnv "CRM_DOCS_DATA_DIR"
  let tenant ← IO.getEnv "CRM_DOCS_TENANT"
  let program ← Program.load (Config.ofEnvironment dataDirectory tenant)
  let (result, _) ← program.run (← readClock) command
  match result with
  | .ok text =>
    IO.println text
    return 0
  | .error fault =>
    IO.eprintln s!"Error: {fault.message}"
    return 1

end QuotePress

def main (arguments : List String) : IO UInt32 := do
  match QuotePress.Command.ofArguments arguments with
  | .ok command => QuotePress.runCommand command
  | .error .helpWanted =>
    IO.println QuotePress.UsageFault.helpWanted.message
    return 0
  | .error fault =>
    IO.eprintln fault.message
    return 2
