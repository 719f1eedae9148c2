import SampleTypes.Json.Quoted
import SampleTypes.Target.Convention
import SampleTypes.Target.Definitions
import SampleTypes.Target.Tokens

/-! C#: classes with automatic properties, and attributes for renamed keys. -/
namespace SampleTypes.Target.CSharp

open Layout

def naming : Convention := .cSharp

def propertyLines (camel : Bool) (field : Field) : List String :=
  let name := naming.fieldName camel field.key
  let declaration :=
    "public " ++ Tokens.cSharp.spell field.type ++ " " ++ name ++ " \x7b get; set; \x7d"
  if naming.isRenamed field.key name then
    ["[JsonPropertyName(" ++ Json.quoted field.key ++ ")]", declaration]
  else [declaration]

def definition (camel : Bool) (schema : Schema) : List Item :=
  [.line ("public class " ++ schema.name),
    .block "\x7b" "\x7d" (Item.lines (schema.fields.flatMap (propertyLines camel)))]

def usings (camel : Bool) (outline : Outline) : List String :=
  (if outline.anyField (·.type.isList) then ["using System.Collections.Generic;"] else []) ++
  (if outline.anyField fun field => naming.renames camel field.key then
    ["using System.Text.Json.Serialization;"] else [])

def source (camel : Bool) (outline : Outline) : String :=
  withImports (usings camel outline)
    (Item.render (.spaces 4) (definitions (fun _ => definition camel) true outline))

end SampleTypes.Target.CSharp
