import SampleTypes.Json.Writer
import SampleTypes.Language
import SampleTypes.Target.CSharp
import SampleTypes.Target.Dart
import SampleTypes.Target.Go
import SampleTypes.Target.Java
import SampleTypes.Target.Kotlin
import SampleTypes.Target.Literal
import SampleTypes.Target.ObjectiveC
import SampleTypes.Target.Rust
import SampleTypes.Target.Swift
import SampleTypes.Target.TypeScript

/-! Code for a sample in any language. -/
namespace SampleTypes

open Target

/-- The text of a value that is no array or object; a string stands without quotes. -/
def Json.scalarText? : Json → Option String
  | .array _ => none
  | .object _ => none
  | .string s => some s
  | scalar => some scalar.text

/-- The object that type definitions describe: the sample itself, or the first item of an array. -/
def Json.described? : Json → Option Members
  | .object members => some members
  | .array (.object members :: _) => some members
  | _ => none

/-- What stands in place of definitions for a sample that has nothing to define. -/
def Json.plainText (sample : Json) : String := sample.scalarText?.getD sample.text

inductive Rendering where
  | definitions (source : (camel : Bool) → Outline → String)
  | literal (source : Json → String)

namespace Language

/-- How names of nested types are formed in a language. -/
def scope : Language → NameScope
  | objectiveC => .qualified
  | _ => .bare

/-- What a language makes of a sample: type definitions of its outline, or a literal of its data. -/
def rendering : Language → Rendering
  | objectiveC => .definitions ObjectiveC.source
  | swift => .definitions Swift.source
  | java => .definitions Java.source
  | kotlin => .definitions Kotlin.source
  | python => .literal (LiteralStyle.python.write 0)
  | javaScript => .literal JavaScript.literal
  | typeScript => .definitions TypeScript.source
  | go => .definitions Go.source
  | rust => .definitions fun _ => Rust.source
  | cSharp => .definitions CSharp.source
  | php => .literal Php.literal
  | ruby => .literal (LiteralStyle.ruby.write 0)
  | dart => .definitions Dart.source

/-- Code for a sample, with the root type named after `root`. A scalar is its own text in every
language, and so is an array in a language of types unless it begins with an object. -/
def generate (language : Language) (sample : Json) (root : String) (camel : Bool) : String :=
  match language.rendering with
  | .definitions source =>
    match sample.described? with
    | some members => source camel (Outline.ofObject language.scope (Name.type root) members)
    | none => sample.plainText
  | .literal source => sample.scalarText?.getD (source sample)

/-- In a language of types, code for an object is that of its outline. -/
theorem generate_of_definitions {language : Language} {source : Bool → Outline → String}
    (hlanguage : language.rendering = .definitions source) {sample : Json} {object : Members}
    (hobject : sample.described? = some object) (root : String) (camel : Bool) :
    language.generate sample root camel =
      source camel (Outline.ofObject language.scope (Name.type root) object) := by
  simp only [generate, hlanguage, hobject]

end Language

/-- The name of the root type where none is given. -/
def defaultRoot : String := "Root"

/-- Generated code with the language it is in. -/
structure Source where
  language : Language
  code : String
  deriving DecidableEq, Repr

namespace Source

/-- Code in the language with exactly this identifier, or else in the fallback language. -/
def ofId (id : String) (sample : Json) (root : String) (camel : Bool) : Source :=
  let language := Language.resolve id
  ⟨language, language.generate sample root camel⟩

def extension (source : Source) : String := source.language.extension

def fileName (source : Source) (stem : String) : String := stem ++ source.extension

end Source

end SampleTypes
