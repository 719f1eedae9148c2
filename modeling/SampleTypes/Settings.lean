import SampleTypes.Files.Tree
import SampleTypes.History.Store
import SampleTypes.Language
import SampleTypes.Text.Span
import SampleTypes.Toml.Document
import SampleTypes.Word

/-! Settings that a file gives, with defaults for all that it leaves out. A file that is no TOML,
has other keys or values of other kinds is malformed; in one that is well formed, a value can still
be of no use, and such a fault comes with its place in the text. -/
namespace SampleTypes

open Files

structure GenerateSettings where
  language : Option String := none
  root : Option String := none
  camelCase : Bool := true
  deriving DecidableEq, Repr

structure HistorySettings where
  enabled : Bool := true
  path : String := ".typesmith/history.json"
  /-- How many entries are kept. -/
  limit : Nat := 50
  deriving DecidableEq, Repr

def HistorySettings.store (s : HistorySettings) : History.Store := ⟨s.path, s.limit⟩

structure Settings where
  generate : GenerateSettings := {}
  history : HistorySettings := {}
  deriving DecidableEq, Repr

namespace Settings

/-- The file that settings are read from where none is named. -/
def defaultPath : String := "typesmith.toml"

/-! What a document says. -/

/-- The values of a section by their keys. An array gives the values of the first keys. -/
def valuesOf? (keys : List String) : Toml.Value → Option (List (String × Toml.Value))
  | .table values => if values.all fun (key, _) => keys.contains key then some values else none
  | .array items => some (keys.zip items)
  | _ => none

/-- The value under a key, read by `f`, or a default if there is none. -/
def valueAt {α : Type} (key : String) (f : Toml.Value → Option α) (default : α)
    (values : List (String × Toml.Value)) : Option α :=
  match values.lookup key with
  | some value => f value
  | none => some default

/-- A number of entries, at most 64 bits wide. -/
def count? : Toml.Value → Option Nat
  | .integer (some n) => if 0 ≤ n ∧ FitsUnsigned n.toNat then some n.toNat else none
  | _ => none

def generate? (value : Toml.Value) : Option GenerateSettings := do
  let values ← valuesOf? ["language", "root", "camel_case"] value
  return {
    language := ← valueAt "language" (fun v => v.string?.map some) none values
    root := ← valueAt "root" (fun v => v.string?.map some) none values
    camelCase := ← valueAt "camel_case" Toml.Value.boolean? true values }

def history? (value : Toml.Value) : Option HistorySettings := do
  let values ← valuesOf? ["enabled", "path", "max_entries"] value
  let default : HistorySettings := {}
  return {
    enabled := ← valueAt "enabled" Toml.Value.boolean? default.enabled values
    path := ← valueAt "path" Toml.Value.string? default.path values
    limit := ← valueAt "max_entries" count? default.limit values }

/-- The settings of a document, if it is well formed. -/
def ofDocument? (document : List (String × Toml.Value)) : Option Settings := do
  let values ← valuesOf? ["generate", "history"] (.table document)
  return {
    generate := ← valueAt "generate" generate? {} values
    history := ← valueAt "history" history? {} values }

/-! Faults. -/

/-- A value of the right kind that is of no use. -/
inductive Fault where
  | unknownLanguage (name : String)
  | blankRoot
  | zeroLimit
  deriving DecidableEq, Repr

namespace Fault

def message : Fault → String
  | unknownLanguage name => Language.unknownMessage name
  | blankRoot => "root type name cannot be empty"
  | zeroLimit => "max_entries must be at least 1"

/-- The text at whose first occurrence a fault is shown. -/
def needle : Fault → String
  | unknownLanguage name => "\"" ++ name ++ "\""
  | blankRoot => "root"
  | zeroLimit => "max_entries"

/-- What is written at the place where a fault is shown. -/
def label : Fault → String
  | unknownLanguage _ => "not a supported language"
  | fault => fault.message

end Fault

/-- The first fault of settings: of the language, then of the root, then of the limit. -/
def fault? (s : Settings) : Option Fault :=
  match s.generate.language.filter fun name => (Language.parse? name).isNone with
  | some name => some (.unknownLanguage name)
  | none =>
    if s.generate.root.any Text.isBlankText then some .blankRoot
    else if s.history.limit = 0 then some .zeroLimit
    else none

inductive Error where
  | unreadable (path : String)
  | malformed (path : String)
  | invalid (fault : Fault) (span : Option Text.Span)
  deriving DecidableEq, Repr

namespace Error

def message : Error → String
  | unreadable path => "failed to read '" ++ path ++ "'"
  | malformed path => "failed to parse " ++ path
  | invalid fault _ => fault.message

/-- The name of a kind of error, by which it can be looked up. -/
def code? : Error → Option String
  | unreadable _ => none
  | malformed _ => some "typesmith::parse_error"
  | invalid (.unknownLanguage _) _ => some "typesmith::unknown_language"
  | invalid _ _ => some "typesmith::invalid_config"

/-- What can be done about an error. -/
def help? : Error → Option String
  | unreadable _ => some "pass --config with the path of an existing typesmith.toml"
  | invalid (.unknownLanguage _) _ =>
    some "run 'typesmith languages' to list the supported identifiers"
  | _ => none

end Error

/-! Reading. -/

/-- The settings of a text, which is named `path` in errors. -/
def parse (text path : String) : Except Error Settings :=
  match (Toml.parse? text).bind ofDocument? with
  | none => .error (.malformed path)
  | some settings =>
    match settings.fault? with
    | some fault => .error (.invalid fault (Text.Span.find? text fault.needle))
    | none => .ok settings

variable {m : Type → Type} [Monad m] [FileSystem m]

def load (path : String) : m (Except Error Settings) := do
  match ← FileSystem.readText path with
  | some text => return parse text path
  | none => return .error (.unreadable path)

/-- The settings of a run: from the file that is named, or else from the default one if there is
such a file, or else the defaults. -/
def discover : (path : Option String) → m (Except Error Settings)
  | some path => load path
  | none => do
    if ← FileSystem.isFile defaultPath then load defaultPath else return .ok {}

end Settings

end SampleTypes
