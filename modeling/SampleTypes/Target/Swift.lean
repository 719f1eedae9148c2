import SampleTypes.Json.Quoted
import SampleTypes.Target.Convention
import SampleTypes.Target.Definitions
import SampleTypes.Target.Tokens

/-! Swift: `Codable` structs with optional properties. -/
namespace SampleTypes.Target.Swift

open Layout

def naming : Convention := .swift

def property (camel : Bool) (field : Field) : String :=
  "var " ++ naming.fieldName camel field.key ++ ": " ++ Tokens.swift.spell field.type ++ "?"

/-- The case of a property in the list of coding keys, with its key where the two differ. -/
def codingKey (camel : Bool) (field : Field) : String :=
  let name := naming.fieldName camel field.key
  if naming.isRenamed field.key name then "case " ++ name ++ " = " ++ Json.quoted field.key
  else "case " ++ name

/-- The coding keys name every property as soon as one of them is renamed. -/
def codingKeys (camel : Bool) (fields : List Field) : List Item :=
  if fields.any fun field => naming.renames camel field.key then
    [.blank, .block "enum CodingKeys: String, CodingKey \x7b" "\x7d"
      (Item.lines (fields.map (codingKey camel)))]
  else []

def definition (camel : Bool) (schema : Schema) : List Item :=
  [.block ("struct " ++ schema.name ++ ": Codable \x7b") "\x7d"
    (Item.lines (schema.fields.map (property camel)) ++ codingKeys camel schema.fields)]

def source (camel : Bool) (outline : Outline) : String :=
  Item.render (.spaces 4) (definitions (fun _ => definition camel) true outline)

end SampleTypes.Target.Swift
