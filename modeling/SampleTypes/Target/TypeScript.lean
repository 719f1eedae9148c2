import SampleTypes.Json.Quoted
import SampleTypes.Target.Convention
import SampleTypes.Target.Definitions
import SampleTypes.Target.Tokens

/-! TypeScript: one interface per object, its properties named as the keys. -/
namespace SampleTypes.Target.TypeScript

open Layout

/-- The name of a property; one that is no identifier stands in quotes. -/
def propertyToken (camel : Bool) (key : String) : String :=
  let name := Convention.typeScript.fieldName camel key
  if Name.isIdentifier name then name else Json.quoted name

def property (camel : Bool) (field : Field) : String :=
  propertyToken camel field.key ++ ": " ++ Tokens.typeScript.spell field.type ++ ";"

def definition (camel : Bool) (schema : Schema) : List Item :=
  [.block ("interface " ++ schema.name ++ " \x7b") "\x7d"
    (Item.lines (schema.fields.map (property camel)))]

def source (camel : Bool) (outline : Outline) : String :=
  Item.render (.spaces 2) (definitions (fun _ => definition camel) true outline)

end SampleTypes.Target.TypeScript
