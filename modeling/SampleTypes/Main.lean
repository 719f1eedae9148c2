import SampleTypes.Command.Run
import Std.Time.Zoned

/-! The program: command lines on the files of a machine. -/
namespace SampleTypes

open Files

/-- The result of an action, or `default` if it fails. -/
def resultOr {α : Type} (default : α) (action : IO α) : IO α := do
  try action catch _ => return default

instance : FileSystem IO where
  readText path := resultOr none do return String.fromUTF8? (← IO.FS.readBinFile path)
  isFile path := resultOr false do return (← ((← IO.currentDir) / path).metadata).type == .file
  writeText path text := resultOr false do
    let parent := Path.parent path
    if parent ≠ "" then IO.FS.createDirAll parent
    IO.FS.writeFile path text
    return true

def readStandardInput : IO (Option String) :=
  resultOr none do return String.fromUTF8? (← (← IO.getStdin).readBinToEnd)

/-- The time in milliseconds since 1970. -/
def currentTime : IO Int := do
  return (← Std.Time.Timestamp.now).toMillisecondsSinceUnixEpoch.val

/-- The time zone of the machine, or else UTC. -/
def machineZone : IO CivilTime.Zone :=
  resultOr .utc do
    let rules ← Std.Time.Database.defaultGetLocalZoneRules
    return ⟨fun milliseconds =>
      (rules.timezoneAt (.ofMillisecondsSinceUnixEpoch ⟨milliseconds⟩)).offset.second.val⟩

/-- What is said on the error stream about an outcome. -/
def complaint : Command.Outcome → String
  | .done _ => ""
  | .failed failure => "Error: " ++ failure.message ++ "\n"
  | .misused => "Usage: typesmith [-c PATH] [-v] generate|languages|history [OPTIONS]\n"

end SampleTypes

open SampleTypes in
def main (arguments : List String) : IO UInt32 := do
  let outcome ← Command.run readStandardInput currentTime arguments (← machineZone)
  (← IO.getStdout).putStr outcome.output
  (← IO.getStderr).putStr (complaint outcome)
  return outcome.exitCode.toUInt32
