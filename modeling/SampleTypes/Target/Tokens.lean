import SampleTypes.FieldType

/-! How a language spells types. -/
namespace SampleTypes.Target

structure Tokens where
  any : String
  bool : String
  int : String
  float : String
  string : String
  list : (element : String) → String
  record : (name : String) → String := id
  /-- The spelling that a type has in a list only, if it has one. -/
  boxed : FieldType → Option String := fun _ => none

namespace Tokens

def spell (t : Tokens) : FieldType → String
  | .any => t.any
  | .bool => t.bool
  | .int => t.int
  | .float => t.float
  | .string => t.string
  | .list element => t.list ((t.boxed element).getD (t.spell element))
  | .record name => t.record name

/-- The spelling of a type in a list. -/
def spellElement (t : Tokens) (type : FieldType) : String := (t.boxed type).getD (t.spell type)

theorem spell_list (t : Tokens) (element : FieldType) :
    t.spell (.list element) = t.list (t.spellElement element) := by
  simp [spell, spellElement]

def inBrackets (element : String) : String := "[" ++ element ++ "]"

/-- A generic type applied to an element type. -/
def generic (head element : String) : String := head ++ "<" ++ element ++ ">"

/-- Lists are bare where nothing is known of their elements. -/
def objectiveC : Tokens where
  any := "id"
  bool := "NSNumber *"
  int := "NSNumber *"
  float := "NSNumber *"
  string := "NSString *"
  list := fun element => if element = "id" then "NSArray *" else "NSArray<" ++ element ++ "> *"
  record := fun name => name ++ " *"

def swift : Tokens where
  any := "Any"
  bool := "Bool"
  int := "Int"
  float := "Double"
  string := "String"
  list := inBrackets

/-- No list holds a primitive type. -/
def java : Tokens where
  any := "Object"
  bool := "boolean"
  int := "int"
  float := "double"
  string := "String"
  list := generic "List"
  boxed := fun
    | .bool => some "Boolean"
    | .int => some "Integer"
    | .float => some "Double"
    | _ => none

def kotlin : Tokens where
  any := "Any"
  bool := "Boolean"
  int := "Int"
  float := "Double"
  string := "String"
  list := generic "List"

def typeScript : Tokens where
  any := "any"
  bool := "boolean"
  int := "number"
  float := "number"
  string := "string"
  list := fun element => element ++ "[]"

def go : Tokens where
  any := "interface\x7b\x7d"
  bool := "bool"
  int := "int"
  float := "float64"
  string := "string"
  list := fun element => "[]" ++ element

/-- Only a field itself is optional; a list holds plain values. -/
def rust : Tokens where
  any := "Option<serde_json::Value>"
  bool := "bool"
  int := "i64"
  float := "f64"
  string := "String"
  list := generic "Vec"
  boxed := fun
    | .any => some "serde_json::Value"
    | _ => none

def cSharp : Tokens where
  any := "object"
  bool := "bool"
  int := "int"
  float := "double"
  string := "string"
  list := generic "List"

def dart : Tokens where
  any := "dynamic"
  bool := "bool"
  int := "int"
  float := "double"
  string := "String"
  list := generic "List"

end Tokens

example : Tokens.java.spell (.list (.list .int)) = "List<List<Integer>>" := by decide
example : Tokens.objectiveC.spell (.list (.list .any)) = "NSArray<NSArray *> *" := by decide

end SampleTypes.Target
