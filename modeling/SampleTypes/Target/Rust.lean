import SampleTypes.Json.Quoted
import SampleTypes.Target.Convention
import SampleTypes.Target.Definitions
import SampleTypes.Target.Tokens

/-! Rust: structs that derive their serialization, with attributes for renamed keys. -/
namespace SampleTypes.Target.Rust

open Layout

def naming : Convention := .rust

/-- Names do not depend on the wish for camel case. -/
def fieldLines (field : Field) : List String :=
  let name := naming.fieldName false field.key
  let declaration := "pub " ++ name ++ ": " ++ Tokens.rust.spell field.type ++ ","
  if naming.isRenamed field.key name then
    ["#[serde(rename = " ++ Json.quoted field.key ++ ")]", declaration]
  else [declaration]

def definition (schema : Schema) : List Item :=
  [.line "#[derive(Debug, Clone, Serialize, Deserialize)]",
    .block ("pub struct " ++ schema.name ++ " \x7b") "\x7d"
      (Item.lines (schema.fields.flatMap fieldLines))]

def source (outline : Outline) : String :=
  Item.render (.spaces 4)
    (.line "use serde::\x7bDeserialize, Serialize\x7d;" :: .blank ::
      definitions (fun _ => definition) true outline)

end SampleTypes.Target.Rust
