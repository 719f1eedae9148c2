import SampleTypes.Target.Convention
import SampleTypes.Target.Definitions
import SampleTypes.Target.Tokens

/-! Dart: classes with nullable fields that read themselves from JSON and write themselves to it. -/
namespace SampleTypes.Target.Dart

open Layout

def naming : Convention := .dart

/-- A backslash before what would end a string, escape or start an expression in it. -/
def escapeChar (c : Char) : List Char := if c = '\\' ∨ c = '\'' ∨ c = '$' then ['\\', c] else [c]

def singleQuoted (s : String) : String := "'" ++ .ofList (s.toList.flatMap escapeChar) ++ "'"

def declaration (camel : Bool) (field : Field) : String :=
  let name := naming.fieldName camel field.key
  match field.type with
  | .any => "dynamic " ++ name ++ ";"
  | type => Tokens.dart.spell type ++ "? " ++ name ++ ";"

/-- The expression for the value under a key, converted to the type of its field. -/
def readExpression (field : Field) : String :=
  let json := "json[" ++ singleQuoted field.key ++ "]"
  match field.type with
  | .float => "(" ++ json ++ " as num?)?.toDouble()"
  | .record name => json ++ " != null ? " ++ name ++ ".fromJson(" ++ json ++ ") : null"
  | .list (.record name) =>
    "(" ++ json ++ " as List?)?.map((e) => " ++ name ++ ".fromJson(e)).toList()"
  | .list .any | .list (.list _) => json
  | .list element => json ++ "?.cast<" ++ Tokens.dart.spellElement element ++ ">()"
  | _ => json

/-- The expression for what a field of this name is written as. -/
def writeExpression (type : FieldType) (name : String) : String :=
  match type with
  | .list (.record _) => name ++ "?.map((e) => e.toJson()).toList()"
  | .record _ => name ++ "?.toJson()"
  | _ => name

def readLine (camel : Bool) (field : Field) : String :=
  naming.fieldName camel field.key ++ " = " ++ readExpression field ++ ";"

def writeLine (camel : Bool) (field : Field) : String :=
  "data[" ++ singleQuoted field.key ++ "] = " ++
    writeExpression field.type (naming.fieldName camel field.key) ++ ";"

def definition (camel : Bool) (schema : Schema) : List Item :=
  [.block ("class " ++ schema.name ++ " \x7b") "\x7d"
    (Item.lines (schema.fields.map (declaration camel)) ++
      (if schema.fields.isEmpty then [] else [.blank]) ++
      [.block (schema.name ++ ".fromJson(Map<String, dynamic> json) \x7b") "\x7d"
          (Item.lines (schema.fields.map (readLine camel))),
        .blank,
        .block "Map<String, dynamic> toJson() \x7b" "\x7d"
          (.line "final data = <String, dynamic>\x7b\x7d;" ::
            (Item.lines (schema.fields.map (writeLine camel)) ++ [.line "return data;"]))])]

def source (camel : Bool) (outline : Outline) : String :=
  Item.render (.spaces 2) (definitions (fun _ => definition camel) true outline)

end SampleTypes.Target.Dart
