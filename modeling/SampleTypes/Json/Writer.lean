import SampleTypes.Json.Number
import SampleTypes.Json.Quoted

/-! JSON text without spaces. -/
namespace SampleTypes.Json

mutual

def text : Json → String
  | .null => "null"
  | .bool b => if b then "true" else "false"
  | .number n => n.text
  | .string s => quoted s
  | .array items => "[" ++ ",".intercalate (itemTexts items) ++ "]"
  | .object members => "\x7b" ++ ",".intercalate (memberTexts members) ++ "\x7d"

def itemTexts : List Json → List String
  | [] => []
  | item :: items => text item :: itemTexts items

def memberTexts : Members → List String
  | [] => []
  | (key, value) :: members => (quoted key ++ ":" ++ text value) :: memberTexts members

end

example : (Json.array [.null, .object [("a", .number (.int (-2)))]]).text =
    "[null,\x7b\"a\":-2\x7d]" := by decide +kernel

end SampleTypes.Json
