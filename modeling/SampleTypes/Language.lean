import SampleTypes.Text.Blank
import SampleTypes.Text.Case

/-! The languages that code is generated in, and the names they go by. -/
namespace SampleTypes

inductive Language where
  | objectiveC
  | swift
  | java
  | kotlin
  | python
  | javaScript
  | typeScript
  | go
  | rust
  | cSharp
  | php
  | ruby
  | dart
  deriving DecidableEq, Repr

namespace Language

/-- Every language, in the order in which they are listed. -/
def all : List Language :=
  [objectiveC, swift, java, kotlin, python, javaScript, typeScript, go, rust, cSharp, php, ruby,
    dart]

/-- The language of a name that is not understood. -/
def fallback : Language := javaScript

/-- The identifier of a language, which is also how it is shown. -/
def id : Language → String
  | objectiveC => "Objective-C"
  | swift => "Swift"
  | java => "Java"
  | kotlin => "Kotlin"
  | python => "Python"
  | javaScript => "JavaScript"
  | typeScript => "TypeScript"
  | go => "Go"
  | rust => "Rust"
  | cSharp => "C#"
  | php => "PHP"
  | ruby => "Ruby"
  | dart => "Dart"

/-- The ending of a file's name, with the dot. -/
def extension : Language → String
  | objectiveC => ".m"
  | swift => ".swift"
  | java => ".java"
  | kotlin => ".kt"
  | python => ".py"
  | javaScript => ".js"
  | typeScript => ".ts"
  | go => ".go"
  | rust => ".rs"
  | cSharp => ".cs"
  | php => ".php"
  | ruby => ".rb"
  | dart => ".dart"

/-- Whether a sample becomes type definitions; otherwise it becomes a literal of its data. -/
def hasTypes : Language → Bool
  | python | javaScript | php | ruby => false
  | _ => true

/-- The names of a language in lower case. -/
def aliases : Language → List String
  | objectiveC => ["objective-c", "objectivec", "objc"]
  | swift => ["swift"]
  | java => ["java"]
  | kotlin => ["kotlin", "kt"]
  | python => ["python", "py"]
  | javaScript => ["javascript", "js"]
  | typeScript => ["typescript", "ts"]
  | go => ["go", "golang"]
  | rust => ["rust", "rs"]
  | cSharp => ["c#", "csharp", "cs"]
  | php => ["php"]
  | ruby => ["ruby", "rb"]
  | dart => ["dart"]

/-- The language with exactly this identifier. -/
def ofId? (s : String) : Option Language := all.find? (·.id == s)

/-- The language that goes by this name, whatever its letter case and the blanks around it. -/
def parse? (s : String) : Option Language :=
  let name := Text.lower (Text.trim s)
  (ofId? s).or (all.find? (·.aliases.contains name))

/-- The message about a name that no language goes by. -/
def unknownMessage (s : String) : String := "unknown language '" ++ s ++ "'"

/-- The identifier of the language that goes by this name; an unknown name stays as it is. -/
def canonicalId (s : String) : String := ((parse? s).map id).getD s

/-- The language to generate for an exact identifier. -/
def resolve (s : String) : Language := (ofId? s).getD fallback

/-- The file ending that belongs to an exact identifier. -/
def extension? (s : String) : Option String := (ofId? s).map extension

@[simp] theorem ofId?_id (l : Language) : ofId? l.id = some l := by cases l <;> decide

end Language

example : Language.parse? " GoLang " = some .go ∧ Language.ofId? "go" = none := by decide +kernel

end SampleTypes
