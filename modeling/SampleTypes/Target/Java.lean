import SampleTypes.Json.Quoted
import SampleTypes.Target.Convention
import SampleTypes.Target.Definitions
import SampleTypes.Target.Tokens

/-! Java: classes with private fields, getters and setters, and annotations for renamed keys. -/
namespace SampleTypes.Target.Java

open Layout

def naming : Convention := .java

def fieldLines (camel : Bool) (field : Field) : List String :=
  let name := naming.fieldName camel field.key
  let declaration := "private " ++ Tokens.java.spell field.type ++ " " ++ name ++ ";"
  if naming.isRenamed field.key name then
    ["@JsonProperty(" ++ Json.quoted field.key ++ ")", declaration]
  else [declaration]

/-- The getter and the setter of a field, named after it with a capital. -/
def accessorLines (camel : Bool) (field : Field) : List String :=
  let name := naming.fieldName camel field.key
  let type := Tokens.java.spell field.type
  let accessor := Name.capitalize name
  ["public " ++ type ++ " get" ++ accessor ++ "() \x7b return " ++ name ++ "; \x7d",
    "public void set" ++ accessor ++ "(" ++ type ++ " " ++ name ++ ") \x7b this." ++ name ++
      " = " ++ name ++ "; \x7d"]

/-- Only the root class is public, so that all fit one file. -/
def definition (camel isRoot : Bool) (schema : Schema) : List Item :=
  let visibility := if isRoot then "public " else ""
  [.block (visibility ++ "class " ++ schema.name ++ " \x7b") "\x7d"
    (Item.lines (schema.fields.flatMap (fieldLines camel)) ++
      (if schema.fields.isEmpty then [] else [.blank]) ++
      Item.lines (schema.fields.flatMap (accessorLines camel)))]

/-- The imports that the classes need. -/
def imports (camel : Bool) (outline : Outline) : List String :=
  (if outline.anyField fun field => naming.renames camel field.key then
    ["import com.fasterxml.jackson.annotation.JsonProperty;"] else []) ++
  (if outline.anyField (·.type.isList) then ["import java.util.List;"] else [])

def source (camel : Bool) (outline : Outline) : String :=
  withImports (imports camel outline)
    (Item.render (.spaces 4) (definitions (definition camel) true outline))

end SampleTypes.Target.Java
