import SampleTypes.Generate
import SampleTypes.Proofs.Target.FlatPrinter

/-! Dart classes as syntax: fields, a constructor that reads them from JSON and a method that
writes them to it. The definition of a schema is the text of such a class, and code for a sample
is the text of one class for every defined object. -/
namespace SampleTypes.Target.Dart

open Layout

inductive Expr where
  | name (x : String)
  | emptyMap
  /-- The value under a key of a map. -/
  | entry (map : Expr) (key : String)
  /-- A number or null as a number with a fraction. -/
  | toDouble (value : Expr)
  /-- A value that is a list or null. -/
  | asList (value : Expr)
  /-- A list or null, with elements of some type. -/
  | cast (list : Expr) (element : FieldType)
  /-- The object of a class that a map gives. -/
  | fromJson (type : String) (map : Expr)
  /-- The map that an object gives, or where there may be none, perhaps null. -/
  | toJson (object : Expr) (nullable : Bool)
  | unlessNull (value result : Expr)
  /-- A list of the results for every element `x` of a list, or null. -/
  | mapped (list : Expr) (x : String) (result : Expr)

namespace Expr

def text : Expr → String
  | name x => x
  | emptyMap => "<String, dynamic>\x7b\x7d"
  | entry map key => map.text ++ "[" ++ singleQuoted key ++ "]"
  | toDouble value => "(" ++ value.text ++ " as num?)?.toDouble()"
  | asList value => "(" ++ value.text ++ " as List?)"
  | cast list element => list.text ++ "?.cast<" ++ Tokens.dart.spellElement element ++ ">()"
  | fromJson type map => type ++ ".fromJson(" ++ map.text ++ ")"
  | toJson object nullable => object.text ++ (if nullable then "?.toJson()" else ".toJson()")
  | unlessNull value result => value.text ++ " != null ? " ++ result.text ++ " : null"
  | mapped list x result =>
    list.text ++ "?.map((" ++ x ++ ") => " ++ result.text ++ ").toList()"

/-- The names that an expression takes from around it. -/
def free : Expr → List String
  | name x => [x]
  | emptyMap => []
  | entry map _ => map.free
  | toDouble value => value.free
  | asList value => value.free
  | cast list _ => list.free
  | fromJson _ map => map.free
  | toJson object _ => object.free
  | unlessNull value result => value.free ++ result.free
  | mapped list x result => list.free ++ result.free.filter (· ≠ x)

end Expr

inductive Statement where
  /-- A variable that is set once. -/
  | final (x : String) (value : Expr)
  | assign (target value : Expr)
  | give (value : Expr)

def Statement.text : Statement → String
  | final x value => "final " ++ x ++ " = " ++ value.text ++ ";"
  | assign target value => target.text ++ " = " ++ value.text ++ ";"
  | give value => "return " ++ value.text ++ ";"

/-- A constructor or a method. Types and names of its parameters stand in pairs. -/
structure Routine where
  result : String := ""
  name : String
  parameters : List (String × String) := []
  body : List Statement

/-- A type or the like with the name that it is declared for. -/
def declared (d : String × String) : String := d.1 ++ " " ++ d.2

def Routine.item (r : Routine) : Item :=
  .block (r.result ++ r.name ++ "(" ++ ", ".intercalate (r.parameters.map declared) ++ ") \x7b")
    "\x7d" (Item.lines (r.body.map Statement.text))

structure Class where
  name : String
  fields : List (String × String)
  reader : Routine
  writer : Routine

def Class.items (c : Class) : List Item :=
  [.block ("class " ++ c.name ++ " \x7b") "\x7d"
    (Item.lines (c.fields.map fun d => declared d ++ ";") ++
      (if c.fields.isEmpty then [] else [.blank]) ++ [c.reader.item, .blank, c.writer.item])]

/-- Every field may be null; the type of all values includes that. -/
def declaredType : FieldType → String
  | .any => "dynamic"
  | type => Tokens.dart.spell type ++ "?"

/-- The value under a key, converted to the type of its field. -/
def reading (field : Field) : Expr :=
  let value := Expr.entry (.name "json") field.key
  match field.type with
  | .float => .toDouble value
  | .record name => .unlessNull value (.fromJson name value)
  | .list (.record name) => .mapped (.asList value) "e" (.fromJson name (.name "e"))
  | .list .any | .list (.list _) => value
  | .list element => .cast value element
  | _ => value

/-- What a field of this name is written as. -/
def writing (type : FieldType) (x : String) : Expr :=
  match type with
  | .list (.record _) => .mapped (.name x) "e" (.toJson (.name "e") false)
  | .record _ => .toJson (.name x) true
  | _ => .name x

lemma text_reading (field : Field) : (reading field).text = readExpression field := by
  obtain ⟨key, type⟩ := field
  simp only [reading, readExpression]
  split <;> simp [Expr.text, String.append_assoc]

lemma text_writing (type : FieldType) (x : String) :
    (writing type x).text = writeExpression type x := by
  simp only [writing, writeExpression]
  split <;> simp [Expr.text, String.append_assoc]

namespace Class

/-- The class for a schema reads its fields from the parameter `json`, and writes them to the
variable `data`. -/
def ofSchema (camel : Bool) (schema : Schema) : Class where
  name := schema.name
  fields := schema.fields.map fun field =>
    (declaredType field.type, naming.fieldName camel field.key)
  reader := {
    name := schema.name ++ ".fromJson"
    parameters := [("Map<String, dynamic>", "json")]
    body := schema.fields.map fun field =>
      .assign (.name (naming.fieldName camel field.key)) (reading field) }
  writer := {
    result := "Map<String, dynamic> "
    name := "toJson"
    body := .final "data" .emptyMap :: (schema.fields.map (fun field =>
      .assign (.entry (.name "data") field.key)
        (writing field.type (naming.fieldName camel field.key))) ++ [.give (.name "data")]) }

lemma declared_eq (camel : Bool) (field : Field) :
    declared (declaredType field.type, naming.fieldName camel field.key) ++ ";" =
      declaration camel field := by
  obtain ⟨key, type⟩ := field
  have hmark : "? " = "?" ++ " " := by decide
  cases type with
  | any => rfl
  | _ => simp only [declared, declaration, declaredType, hmark, String.append_assoc]

lemma text_assign_reading (camel : Bool) (field : Field) :
    (Statement.assign (.name (naming.fieldName camel field.key)) (reading field)).text =
      readLine camel field := by
  rw [Statement.text, Expr.text, text_reading, readLine]

lemma text_assign_writing (camel : Bool) (field : Field) :
    (Statement.assign (.entry (.name "data") field.key)
      (writing field.type (naming.fieldName camel field.key))).text = writeLine camel field := by
  have hopen : "data[" = "data" ++ "[" := by decide
  have hclose : "] = " = "]" ++ " = " := by decide
  simp only [Statement.text, Expr.text, text_writing, writeLine, hopen, hclose, String.append_assoc]

/-- The definition of a schema is the text of its class. -/
theorem items_ofSchema (camel : Bool) (schema : Schema) :
    (ofSchema camel schema).items = definition camel schema := by
  have hreader : schema.name ++ ".fromJson(Map<String, dynamic> json) \x7b" =
      "" ++ (schema.name ++ ".fromJson") ++ "(" ++ ", ".intercalate ["Map<String, dynamic> json"] ++
        ") \x7b" := by
    rw [String.intercalate_singleton]
    simp only [String.append_assoc, String.empty_append]
    rfl
  have hparameter : declared ("Map<String, dynamic>", "json") = "Map<String, dynamic> json" := by
    decide
  have hwriter : "Map<String, dynamic> " ++ "toJson" ++ "(" ++ ", ".intercalate [] ++ ") \x7b" =
      "Map<String, dynamic> toJson() \x7b" := by decide
  have hdata : (Statement.final "data" .emptyMap).text =
      "final data = <String, dynamic>\x7b\x7d;" := by decide
  have hgive : (Statement.give (.name "data")).text = "return data;" := by decide
  simp only [items, ofSchema, definition, Routine.item, List.map_cons, List.map_nil,
    List.map_append, List.map_map, Function.comp_def, declared_eq, text_assign_reading,
    text_assign_writing, hparameter, hwriter, hdata, hgive, hreader, List.isEmpty_map]
  simp [Item.lines]

section Bodies

variable (camel : Bool) {schema : Schema}

lemma mem_reader_body_iff {s : Statement} : s ∈ (ofSchema camel schema).reader.body ↔
    ∃ field ∈ schema.fields,
      .assign (.name (naming.fieldName camel field.key)) (reading field) = s :=
  List.mem_map

lemma mem_writer_body_iff {s : Statement} : s ∈ (ofSchema camel schema).writer.body ↔
    s = .final "data" .emptyMap ∨
      (∃ field ∈ schema.fields, .assign (.entry (.name "data") field.key)
        (writing field.type (naming.fieldName camel field.key)) = s) ∨
      s = .give (.name "data") := by
  simp only [ofSchema, List.mem_cons, List.mem_append, List.mem_map, List.not_mem_nil, or_false]

lemma assign_reading_mem {field : Field} (h : field ∈ schema.fields) :
    .assign (.name (naming.fieldName camel field.key)) (reading field) ∈
      (ofSchema camel schema).reader.body :=
  (mem_reader_body_iff camel).mpr ⟨field, h, rfl⟩

lemma assign_writing_mem {field : Field} (h : field ∈ schema.fields) :
    .assign (.entry (.name "data") field.key)
        (writing field.type (naming.fieldName camel field.key)) ∈
      (ofSchema camel schema).writer.body :=
  (mem_writer_body_iff camel).mpr (Or.inr (Or.inl ⟨field, h, rfl⟩))

end Bodies

end Class

/-- The lines of classes, a blank one between two. -/
def classLines (classes : List Class) : List String :=
  [""].intercalate (classes.map fun c => Item.flatAll (.spaces 2) 0 c.items)

lemma append_spread (ls : List String) (blocks : List (List String)) :
    ls ++ spread blocks = [""].intercalate (ls :: blocks) := by
  induction blocks generalizing ls with
  | nil => simp [spread]
  | cons block blocks ih =>
    rw [List.intercalate_cons_cons, ← ih]
    simp [spread]

/-- Code for a sample is that of one class for every defined object. -/
theorem generate_eq_classes {sample : Json} {object : Members}
    (hobject : sample.described? = some object) (root : String) (camel : Bool) :
    Language.dart.generate sample root camel =
      "\n".intercalate (classLines ((definedObjects .bare (Name.type root) object).map fun d =>
        Class.ofSchema camel (.ofMembers .bare d.1 d.2))) := by
  have hgenerate : Language.dart.generate sample root camel =
      source camel (Outline.ofObject .bare (Name.type root) object) := by
    simp only [Language.generate, Language.rendering, Language.scope, hobject]
  have hclasses : (definedObjects .bare (Name.type root) object).map (fun d =>
        Item.flatAll (.spaces 2) 0 (Class.ofSchema camel (.ofMembers .bare d.1 d.2)).items) =
      (Outline.ofObject .bare (Name.type root) object).schemas.map fun schema =>
        Item.flatAll (.spaces 2) 0 (definition camel schema) := by
    rw [Outline.schemas_ofObject, List.map_map]
    simp only [Function.comp_def, Class.items_ofSchema]
  rw [hgenerate, source, Item.render_eq, flatAll_definitions, append_spread, classLines,
    List.map_map, Function.comp_def, hclasses]
  rfl

end SampleTypes.Target.Dart
