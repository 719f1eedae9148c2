import SampleTypes.Json.Quoted
import SampleTypes.Target.Convention
import SampleTypes.Target.Definitions
import SampleTypes.Target.Tokens

/-! Kotlin: serializable data classes whose properties default to null. -/
namespace SampleTypes.Target.Kotlin

open Layout

def naming : Convention := .kotlin

def parameterLines (camel : Bool) (field : Field) (separator : String) : List String :=
  let name := naming.fieldName camel field.key
  let declaration :=
    "val " ++ name ++ ": " ++ Tokens.kotlin.spell field.type ++ "? = null" ++ separator
  if naming.isRenamed field.key name then
    ["@SerialName(" ++ Json.quoted field.key ++ ")", declaration]
  else [declaration]

/-- The parameters of a class, with a comma after all but the last. -/
def parameters (camel : Bool) : List Field → List String
  | [] => []
  | [field] => parameterLines camel field ""
  | field :: fields => parameterLines camel field "," ++ parameters camel fields

/-- A class without properties is no data class. -/
def definition (camel : Bool) (schema : Schema) : List Item :=
  .line "@Serializable" ::
    (if schema.fields.isEmpty then [.line ("class " ++ schema.name)]
    else [.block ("data class " ++ schema.name ++ "(") ")"
      (Item.lines (parameters camel schema.fields))])

def imports (camel : Bool) (outline : Outline) : List String :=
  (if outline.anyField fun field => naming.renames camel field.key then
    ["import kotlinx.serialization.SerialName"] else []) ++
  ["import kotlinx.serialization.Serializable"]

def source (camel : Bool) (outline : Outline) : String :=
  withImports (imports camel outline)
    (Item.render (.spaces 4) (definitions (fun _ => definition camel) true outline))

end SampleTypes.Target.Kotlin
