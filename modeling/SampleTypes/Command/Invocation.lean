import SampleTypes.Command.Arguments
import SampleTypes.Word

/-! What a command line asks for. -/
namespace SampleTypes.Command

/-- The feature whose history holds the samples that code was generated for. -/
def generateFeature : String := "json-to-code"

/-- Where generated code goes. -/
inductive Destination where
  | output
  | file (path : String)
  /-- A file in a directory, named after the root type. -/
  | directory (path : String)
  deriving DecidableEq, Repr

structure GenerateRequest where
  /-- The file to read, or a hyphen for the standard input. -/
  input : String := "-"
  language : Option String := none
  root : Option String := none
  keepKeys : Bool := false
  destination : Destination := .output
  remembered : Bool := true
  deriving DecidableEq, Repr

structure HistoryRequest where
  feature : Option String := none
  /-- Asks for the newest input in place of a listing. -/
  last : Bool := false
  limit : Option Nat := none
  deriving DecidableEq, Repr

inductive Request where
  | generate (request : GenerateRequest)
  | languages
  | history (request : HistoryRequest)
  deriving DecidableEq, Repr

structure Invocation where
  settingsPath : Option String
  request : Request
  deriving DecidableEq, Repr

/-- The switches that stand before a command or after it. -/
def commonSwitches : List Switch := [.settings, .verbose]

/-- A number in decimal digits, with a plus sign or not, at most 64 bits wide. -/
def count? (s : String) : Option Nat :=
  let digits := match s.toList with
    | '+' :: cs => cs
    | cs => cs
  if digits.isEmpty ∨ !digits.all Char.isDigit then none
  else
    let n := Nat.ofDigitChars 10 digits 0
    if FitsUnsigned n then some n else none

namespace Arguments

/-- The path that a switch gives, which must not be empty. -/
def path? (a : Arguments) (s : Switch) : Option (Option String) :=
  if a.value? s = some "" then none else some (a.value? s)

def destination? (a : Arguments) : Option Destination := do
  match ← a.path? .file, ← a.path? .directory with
  | none, none => return .output
  | some path, none => return .file path
  | none, some path => return .directory path
  | some _, some _ => none

end Arguments

def GenerateRequest.ofArguments? (a : Arguments) : Option GenerateRequest := do
  let input ← match a.operands with
    | [] => some "-"
    | [input] => some input
    | _ => none
  return {
    input
    language := a.value? .language
    root := a.value? .root
    keepKeys := a.has .keepKeys
    destination := ← a.destination?
    remembered := !a.has .noHistory }

def HistoryRequest.ofArguments? (a : Arguments) : Option HistoryRequest := do
  guard a.operands.isEmpty
  let limit ← match a.value? .limit with
    | none => some none
    | some s => (count? s).map some
  return { feature := a.value? .feature, last := a.has .last, limit }

namespace Request

/-- The switches of a command beside the common ones, if there is a command of this name, and the
request that its arguments make. -/
def ofName? : String → Option (List Switch × (Arguments → Option Request))
  | "generate" =>
    some ([.language, .root, .keepKeys, .file, .directory, .noHistory],
      fun a => (GenerateRequest.ofArguments? a).map generate)
  | "languages" => some ([], fun a => if a.operands.isEmpty then some languages else none)
  | "history" =>
    some ([.feature, .last, .limit], fun a => (HistoryRequest.ofArguments? a).map history)
  | _ => none

end Request

/-- What arguments ask for: common switches, the name of a command, its arguments. A path of
settings after the name goes before one that stands ahead of it. -/
def Invocation.ofArguments? (arguments : List String) : Option Invocation := do
  let ahead ← Arguments.read commonSwitches false arguments
  let aheadPath ← ahead.path? .settings
  match ahead.operands with
  | [] => none
  | name :: rest =>
    let (switches, request?) ← Request.ofName? name
    let a ← Arguments.read (commonSwitches ++ switches) true rest
    let path ← a.path? .settings
    return { settingsPath := path.or aheadPath, request := ← request? a }

end SampleTypes.Command
