import SampleTypes.Json.Quoted
import SampleTypes.Target.Convention
import SampleTypes.Target.Definitions
import SampleTypes.Target.Tokens

/-! Go: structs with exported fields, each with a tag that tells its key. -/
namespace SampleTypes.Target.Go

open Layout

/-- A quote or backslash with a backslash before it. -/
def escapeTagChar (c : Char) : List Char := if c = '\\' ∨ c = '"' then ['\\', c] else [c]

/-- A tag between backticks, or between quotes if it has a backtick itself. -/
def tagLiteral (tag : String) : String :=
  if tag.toList.contains '`' then "\"" ++ .ofList (tag.toList.flatMap escapeTagChar) ++ "\""
  else "`" ++ tag ++ "`"

/-- The tag of the field for a key. -/
def tag (key : String) : String := tagLiteral ("json:" ++ Json.quoted key)

def fieldLine (camel : Bool) (field : Field) : String :=
  Convention.go.fieldName camel field.key ++ " " ++ Tokens.go.spell field.type ++ " " ++
    tag field.key

def definition (camel : Bool) (schema : Schema) : List Item :=
  [.block ("type " ++ schema.name ++ " struct \x7b") "\x7d"
    (Item.lines (schema.fields.map (fieldLine camel)))]

def source (camel : Bool) (outline : Outline) : String :=
  Item.render .tab (definitions (fun _ => definition camel) true outline)

end SampleTypes.Target.Go
