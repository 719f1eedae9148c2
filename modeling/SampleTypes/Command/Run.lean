import SampleTypes.Command.Generate
import SampleTypes.Command.Listing

/-! Command lines, carried out on a file system. -/
namespace SampleTypes.Command

open Files

variable {m : Type → Type} [Monad m] [FileSystem m]

/-- The settings that an invocation asks for. -/
def Invocation.settings (i : Invocation) : ExceptT Failure m Settings := do
  match ← Settings.discover (m := m) i.settingsPath with
  | .ok settings => return settings
  | .error error => throw (.settings error)

/-- Carries out a request. The languages are listed without any settings. -/
def Invocation.perform (standardInput : m (Option String)) (now : m Int) (zone : CivilTime.Zone)
    (i : Invocation) : ExceptT Failure m String := do
  match i.request with
  | .languages => return printed languageListing
  | .history request => showHistory (m := m) zone (← i.settings).history.store request
  | .generate request => generate standardInput now (← i.settings) request

/-- Runs a command line, on a machine in some time zone. -/
def run (standardInput : m (Option String)) (now : m Int) (arguments : List String)
    (zone : CivilTime.Zone := .utc) : m Outcome := do
  match Invocation.ofArguments? arguments with
  | none => return .misused
  | some i => return .ofExcept (← (i.perform standardInput now zone).run)

end SampleTypes.Command
