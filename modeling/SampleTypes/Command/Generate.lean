import SampleTypes.Command.Invocation
import SampleTypes.Command.Outcome
import SampleTypes.Files.Path
import SampleTypes.Generate

/-! Code for a sample that is read, delivered to where it is asked for, and the sample remembered.
What a command line names goes before what the settings name. -/
namespace SampleTypes.Command

open Files

/-- The language where none is named. -/
def defaultLanguage : String := "TypeScript"

namespace GenerateRequest

/-- The identifier of the language that is asked for, or its name if no language goes by that. -/
def languageId (request : GenerateRequest) (settings : Settings) : String :=
  Language.canonicalId ((request.language.or settings.generate.language).getD defaultLanguage)

def rootName (request : GenerateRequest) (settings : Settings) : String :=
  (request.root.or settings.generate.root).getD defaultRoot

def camel (request : GenerateRequest) (settings : Settings) : Bool :=
  !request.keepKeys && settings.generate.camelCase

/-- The code that is asked for. -/
def source (request : GenerateRequest) (settings : Settings) (sample : Json) : Source :=
  Source.ofId (request.languageId settings) sample (request.rootName settings)
    (request.camel settings)

/-- The file that code is written to, if to any. For a name of its own in a directory, a file needs
a language that is known. -/
def path (request : GenerateRequest) (settings : Settings) (source : Source) :
    Except Failure (Option String) :=
  match request.destination with
  | .output => .ok none
  | .file path => .ok (some path)
  | .directory path =>
    let id := request.languageId settings
    if (Language.extension? id).isNone then .error (.unknownExtension id)
    else
      .ok (some (Path.join path (source.fileName (Name.snakeCase (request.rootName settings)))))

end GenerateRequest

/-- What is printed about code that was written to a file. -/
def writtenLine (path : String) (source : Source) : String :=
  "  + " ++ path ++ " (" ++ source.language.id ++ ", " ++
    toString (Text.lines source.code).length ++ " lines)\n"

variable {m : Type → Type} [Monad m] [FileSystem m]

/-- The text of the file that is asked for, or of the standard input. -/
def readInput (standardInput : m (Option String)) (path : String) : ExceptT Failure m String := do
  if path = "-" then
    match ← standardInput with
    | some text => return text
    | none => throw .unreadableStandardInput
  else
    match ← FileSystem.readText (m := m) path with
    | some text => return text
    | none => throw (.unreadableInput path)

/-- Writes code to a file, or gives it to be printed: what is printed. -/
def deliver (path : Option String) (source : Source) : ExceptT Failure m String := do
  let text := source.code ++ "\n"
  match path with
  | none => return text
  | some path =>
    if ← FileSystem.writeText (m := m) path text then return writtenLine path source
    else throw (.unwritable path)

/-- Generates code for a sample. A sample that cannot be remembered changes nothing else. -/
def generate (standardInput : m (Option String)) (now : m Int) (settings : Settings)
    (request : GenerateRequest) : ExceptT Failure m String := do
  let text ← readInput standardInput request.input
  match Json.parse? text with
  | none => throw .invalidSample
  | some sample =>
    let source := request.source settings sample
    let path ← MonadExcept.ofExcept (request.path settings source)
    let printed ← deliver path source
    if settings.history.enabled ∧ request.remembered then
      let _ ← settings.history.store.save (m := m) (← now) generateFeature text
        [("language", .string source.language.id)]
    return printed

end SampleTypes.Command
