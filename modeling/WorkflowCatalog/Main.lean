import Std.Time.DateTime.Timestamp
import WorkflowCatalog.CommandLine

/-!
# The command line

Files, environment and clock for the commands.
-/
namespace WorkflowCatalog.Main

def usage : String := "Usage: workflow-sync [OPTIONS] <COMMAND>"

/-- The variables of the environment, as the system shows them. -/
def environment : IO (List (String × String)) := do
  let bytes ← IO.FS.readBinFile "/proc/self/environ"
  let pieces := Text.splitOn '\x00' (Text.ofBytes bytes).toList
  return pieces.map fun piece =>
    let (name, value) := Text.cutAt '=' piece
    (String.ofList name, String.ofList (value.getD []))

def now : IO Timestamp := do
  let t ← Std.Time.Timestamp.now
  let seconds := t.val.second.val
  let nanos := Int.toNat t.val.nano.val
  let text := Timestamp.render (Int.fdiv seconds 60) (Int.fmod seconds 60).toNat nanos
  match Timestamp.ofText? text with
  | some time => return time
  | none => throw (IO.userError "the clock is out of range")

def read (path : String) : IO CommandLine.Found := do
  if !(← ((← IO.currentDir) / path).pathExists) then return .nothing
  try
    match String.fromUTF8? (← IO.FS.readBinFile path) with
    | some t => return .text t
    | none => return .unreadable
  catch _ => return .unreadable

def succeeds (act : IO Unit) : IO Bool := do
  try
    act
    return true
  catch _ => return false

/-- Tries the steps of a save without touching the catalog. -/
def saveFault (directory : String) : IO (Option SaveFault) := do
  let staging := DiskCatalog.stagingPath directory
  if !(← succeeds (IO.FS.createDirAll directory)) then return some .directory
  if !(← succeeds (IO.FS.writeFile staging "")) then return some .write
  IO.FS.removeFile staging
  if ← ((← IO.currentDir) / DiskCatalog.filePath directory).isDir then return some .replace
  return none

/-- Writes beside the file and then moves what was written into place. -/
def replace (path text : String) : IO Unit := do
  let staging := path ++ ".tmp"
  IO.FS.writeFile staging text
  IO.FS.rename staging path

def append (path text : String) : IO Unit := do
  let _ ← succeeds do
    let h ← IO.FS.Handle.mk path .append
    h.putStr text

def files : CommandLine.Files IO := ⟨read, saveFault, replace, append⟩

def run (args : List String) : IO UInt32 := do
  let given ← environment
  match CommandLine.Invocation.ofArguments given args with
  | .error .help =>
    IO.println usage
    return 0
  | .error (.version command) =>
    IO.println (CommandLine.versionLine command)
    return 0
  | .error .usage =>
    IO.eprintln usage
    return 2
  | .ok i =>
    let reply ← CommandLine.run ⟨files, given, ← now⟩ i
    reply.lines.forM IO.println
    match reply.failure with
    | none => return 0
    | some message =>
      IO.eprintln ("Error: " ++ message)
      return 1

end WorkflowCatalog.Main

def main (args : List String) : IO UInt32 := WorkflowCatalog.Main.run args
