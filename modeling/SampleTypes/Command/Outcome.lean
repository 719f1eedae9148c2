import SampleTypes.Settings

/-! How a command ends. -/
namespace SampleTypes.Command

inductive Failure where
  | settings (error : Settings.Error)
  | unreadableInput (path : String)
  | unreadableStandardInput
  | invalidSample
  /-- No file ending belongs to the identifier of a language. -/
  | unknownExtension (id : String)
  | unwritable (path : String)
  deriving DecidableEq, Repr

def Failure.message : Failure → String
  | settings error => error.message
  | unreadableInput path => "Failed to read " ++ path
  | unreadableStandardInput => "Failed to read JSON from stdin"
  | invalidSample => "Input is not valid JSON"
  | unknownExtension id => "Unknown language '" ++ id ++ "': cannot choose a file extension"
  | unwritable path => "Failed to write " ++ path

inductive Outcome where
  /-- A command that succeeded, with what it prints. -/
  | done (output : String)
  | failed (failure : Failure)
  /-- A command line that asks for nothing. -/
  | misused
  deriving DecidableEq, Repr

namespace Outcome

def exitCode : Outcome → Nat
  | done _ => 0
  | failed _ => 1
  | misused => 2

/-- What is printed. Only a command that succeeds prints. -/
def output : Outcome → String
  | done output => output
  | _ => ""

def ofExcept : Except Failure String → Outcome
  | .ok output => done output
  | .error failure => failed failure

end Outcome

end SampleTypes.Command
