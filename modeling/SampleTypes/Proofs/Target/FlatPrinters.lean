import SampleTypes.Proofs.Target.FlatPrinter
import SampleTypes.Proofs.Target.Line
import SampleTypes.Proofs.Target.Renaming
import SampleTypes.Target.CSharp
import SampleTypes.Target.Dart
import SampleTypes.Target.Go
import SampleTypes.Target.Java
import SampleTypes.Target.Kotlin
import SampleTypes.Target.Rust
import SampleTypes.Target.TypeScript

/-! The flat printers of eight languages. Each knows the lines of its language's definitions, and
keeps every one of them on a line. -/
namespace SampleTypes.Target

open Layout Text

lemma fourSpaces : (Indent.spaces 4).times 1 = "    " := by decide

/-- A note with a key in quotes stands on one line. -/
lemma oneLine_quotedNote (noted : Bool) {before after : String} (hbefore : OneLine before)
    (hafter : OneLine after) (key : String) :
    ∀ l ∈ (if noted then ["    " ++ (before ++ Json.quoted key ++ after)] else []), OneLine l := by
  cases noted with
  | false => exact List.forall_mem_nil _
  | true =>
    rw [if_pos rfl, List.forall_mem_singleton]
    simp +decide only [oneLine_append, hbefore, hafter, Json.oneLine_quoted, and_self]

namespace Swift

def printer : FlatPrinter where
  opening _ schema := ["struct " ++ schema.name ++ ": Codable \x7b"]
  declaration camel _ field := "    " ++ property camel field
  closing camel schema := codingKeysLines camel (schema.fields.map (·.key)) ++ ["\x7d"]

lemma flatAll_eq_block (camel isRoot : Bool) (schema : Schema) :
    Item.flatAll (.spaces 4) 0 (definition camel schema) = printer.block camel isRoot schema := by
  have hfields : (printer.declarations camel schema.fields).flatten =
      schema.fields.map fun field => "    " ++ property camel field :=
    FlatPrinter.flatten_declarations_eq_map (fun _ => rfl) (fun _ _ => rfl) _
  rw [flatAll_definition, FlatPrinter.block, hfields]
  simp [printer]

lemma oneLine_codingKeysLines {camel : Bool} {keys : List String}
    (h : ∀ key ∈ keys, OneLine key) : ∀ l ∈ codingKeysLines camel keys, OneLine l := by
  have hcase : ∀ l ∈ keys.map (caseLine camel), OneLine l := by
    intro l hl
    obtain ⟨key, hkey, rfl⟩ := List.mem_map.mp hl
    have hname := Convention.keepsLines_swift.fieldName camel (h key hkey)
    rw [caseLine, naming]
    split
    · simp +decide only [oneLine_append, hname, Json.oneLine_quoted, and_self]
    · simp +decide only [oneLine_append, hname, and_self]
  rw [codingKeysLines]
  split
  · refine List.forall_mem_cons.mpr ⟨by decide, List.forall_mem_cons.mpr ⟨by decide, ?_⟩⟩
    exact List.forall_mem_append.mpr ⟨hcase, by decide⟩
  · exact List.forall_mem_nil _

lemma keepsLines_printer : printer.KeepsLines where
  opening _ schema h := by
    simp +decide only [printer, List.forall_mem_singleton, oneLine_append, h, and_self]
  notes _ _ _ := List.forall_mem_nil _
  declaration camel _ field h := by
    have hname := Convention.keepsLines_swift.fieldName camel h.key
    have htype := Tokens.keepsLines_swift.spell h.type
    simp +decide only [printer, property, naming, oneLine_append, hname, htype, and_self]
  closing camel schema h := by
    have hkeys : ∀ key ∈ schema.fields.map (·.key), OneLine key := by
      intro key hkey
      obtain ⟨field, hfield, rfl⟩ := List.mem_map.mp hkey
      exact (h.fields field hfield).key
    exact List.forall_mem_append.mpr ⟨oneLine_codingKeysLines hkeys, by decide⟩
  first _ schema := ⟨_, _, rfl, by simp⟩
  last _ isRoot _ := FlatPrinter.getLast?_block_ne rfl (by decide) isRoot

end Swift

namespace Java

/-- The classes of all schemas; only the first is public. -/
def printer : FlatPrinter where
  imports camel schemas :=
    (if schemas.any fun schema => schema.fields.any fun field => naming.renames camel field.key then
      ["import com.fasterxml.jackson.annotation.JsonProperty;"] else []) ++
    (if schemas.any fun schema => schema.fields.any (·.type.isList) then
      ["import java.util.List;"] else [])
  opening isRoot schema :=
    [(if isRoot then "public " else "") ++ "class " ++ schema.name ++ " \x7b"]
  notes camel field :=
    if naming.renames camel field.key then
      ["    " ++ ("@JsonProperty(" ++ Json.quoted field.key ++ ")")] else []
  declaration camel _ field :=
    "    " ++ ("private " ++ Tokens.java.spell field.type ++ " " ++
      naming.fieldName camel field.key ++ ";")
  closing camel schema :=
    (if schema.fields.isEmpty then [] else [""]) ++
      (schema.fields.flatMap (accessorLines camel)).map ("    " ++ ·) ++ ["\x7d"]

lemma map_indented_fieldLines (camel isLast : Bool) (field : Field) :
    (fieldLines camel field).map ((Indent.spaces 4).indented 1) =
      printer.notes camel field ++ [printer.declaration camel isLast field] := by
  simp only [fieldLines, printer]
  rw [← Convention.renames, FlatPrinter.map_indented_notes _ _ (by simp) (by simp), fourSpaces]

lemma flatAll_eq_block (camel isRoot : Bool) (schema : Schema) :
    Item.flatAll (.spaces 4) 0 (definition camel isRoot schema) =
      printer.block camel isRoot schema := by
  have hfields := FlatPrinter.flatten_declarations_noted (map_indented_fieldLines camel)
    schema.fields
  have haccessors : (schema.fields.flatMap (accessorLines camel)).map
      ((Indent.spaces 4).indented 1) =
        (schema.fields.flatMap (accessorLines camel)).map ("    " ++ ·) := by
    rw [Indent.map_indented, fourSpaces]
    intro l hl
    obtain ⟨field, -, hl⟩ := List.mem_flatMap.mp hl
    simp only [accessorLines, List.mem_cons, List.not_mem_nil, or_false] at hl
    rcases hl with rfl | rfl <;> simp
  have hblank : Item.flatAll (.spaces 4) 1 (if schema.fields.isEmpty then [] else [.blank]) =
      if schema.fields.isEmpty then [] else [""] := by
    split <;> rfl
  rw [FlatPrinter.block, hfields]
  simp only [definition, printer, Item.flatAll, Item.flat, Item.flatAll_append, Item.flatAll_lines,
    Nat.zero_add, Indent.indented_zero, haccessors, hblank, List.append_nil, List.append_assoc,
    List.cons_append, List.nil_append]

lemma oneLine_accessorLines (camel : Bool) {field : Field} (h : field.Plain) :
    ∀ l ∈ accessorLines camel field, OneLine l := by
  have hname := Convention.keepsLines_java.fieldName camel h.key
  have haccessor := Name.oneLine_capitalize hname
  have htype := Tokens.keepsLines_java.spell h.type
  intro l hl
  simp only [accessorLines, List.mem_cons, List.not_mem_nil, or_false] at hl
  rcases hl with rfl | rfl <;>
    simp +decide only [naming, oneLine_append, hname, haccessor, htype, and_self]

lemma keepsLines_printer : printer.KeepsLines where
  opening isRoot schema h := by
    cases isRoot with
    | true => simp +decide only [printer, List.forall_mem_singleton, oneLine_append, h, and_self]
    | false => simp +decide only [printer, List.forall_mem_singleton, oneLine_append, h, and_self]
  notes _ field _ := by
    simp only [printer]
    exact oneLine_quotedNote _ (by decide) (by decide) field.key
  declaration camel _ field h := by
    have hname := Convention.keepsLines_java.fieldName camel h.key
    have htype := Tokens.keepsLines_java.spell h.type
    simp +decide only [printer, naming, oneLine_append, hname, htype, and_self]
  closing camel schema h := by
    refine List.forall_mem_append.mpr ⟨List.forall_mem_append.mpr ⟨?_, ?_⟩, by decide⟩
    · split <;> decide
    · intro l hl
      obtain ⟨line, hline, rfl⟩ := List.mem_map.mp hl
      obtain ⟨field, hfield, hline⟩ := List.mem_flatMap.mp hline
      exact (oneLine_append _ _).mpr
        ⟨by decide, oneLine_accessorLines camel (h.fields field hfield) line hline⟩
  first isRoot schema := ⟨_, _, rfl, by simp⟩
  last _ isRoot _ := FlatPrinter.getLast?_block_ne rfl (by decide) isRoot

lemma imports_eq (camel : Bool) (outline : Outline) :
    imports camel outline = printer.imports camel outline.schemas := by
  rw [imports, Outline.anyField_eq, Outline.anyField_eq]
  rfl

end Java

namespace Kotlin

/-- A comma follows every parameter but the last, and an empty class has no list of them. -/
def printer : FlatPrinter where
  imports camel schemas :=
    (if schemas.any fun schema => schema.fields.any fun field => naming.renames camel field.key then
      ["import kotlinx.serialization.SerialName"] else []) ++
    ["import kotlinx.serialization.Serializable"]
  opening _ schema :=
    ["@Serializable", if schema.fields.isEmpty then "class " ++ schema.name
      else "data class " ++ schema.name ++ "("]
  notes camel field :=
    if naming.renames camel field.key then
      ["    " ++ ("@SerialName(" ++ Json.quoted field.key ++ ")")] else []
  declaration camel isLast field :=
    "    " ++ ("val " ++ naming.fieldName camel field.key ++ ": " ++
      Tokens.kotlin.spell field.type ++ "? = null" ++ if isLast then "" else ",")
  closing _ schema := if schema.fields.isEmpty then [] else [")"]

lemma map_indented_parameterLines (camel isLast : Bool) (field : Field) :
    (parameterLines camel field (if isLast then "" else ",")).map ((Indent.spaces 4).indented 1) =
      printer.notes camel field ++ [printer.declaration camel isLast field] := by
  simp only [parameterLines, printer]
  rw [← Convention.renames, FlatPrinter.map_indented_notes _ _ (by simp) (by simp), fourSpaces]

lemma parameters_cons (camel : Bool) (field : Field) (fields : List Field) :
    parameters camel (field :: fields) =
      parameterLines camel field (if fields.isEmpty then "" else ",") ++
        parameters camel fields := by
  cases fields with
  | nil =>
    unfold parameters
    exact (List.append_nil _).symm
  | cons next fields =>
    conv_lhs => unfold parameters
    rfl

lemma map_indented_parameters (camel : Bool) (fields : List Field) :
    (parameters camel fields).map ((Indent.spaces 4).indented 1) =
      (printer.declarations camel fields).flatten := by
  induction fields with
  | nil => rfl
  | cons field fields ih =>
    rw [parameters_cons, List.map_append, map_indented_parameterLines, ih,
      FlatPrinter.declarations, List.flatten_cons]

lemma opening_eq (isRoot : Bool) (schema : Schema) : printer.opening isRoot schema =
    ["@Serializable", if schema.fields.isEmpty then "class " ++ schema.name
      else "data class " ++ schema.name ++ "("] := by
  simp only [printer]

lemma closing_eq (camel : Bool) (schema : Schema) :
    printer.closing camel schema = if schema.fields.isEmpty then [] else [")"] := by
  simp only [printer]

lemma flatAll_eq_block (camel isRoot : Bool) (schema : Schema) :
    Item.flatAll (.spaces 4) 0 (definition camel schema) = printer.block camel isRoot schema := by
  rw [definition, FlatPrinter.block, ← map_indented_parameters, opening_eq, closing_eq]
  cases hfields : schema.fields with
  | nil =>
    simp only [List.isEmpty_nil, if_true, Item.flatAll, Item.flat, Indent.indented_zero,
      List.append_nil, List.cons_append, List.nil_append]
    rfl
  | cons field fields =>
    simp only [List.isEmpty_cons, Bool.false_eq_true, if_false, Item.flatAll, Item.flat,
      Item.flatAll_lines, Indent.indented_zero, Nat.zero_add, List.append_nil, List.cons_append,
      List.nil_append]

lemma keepsLines_printer : printer.KeepsLines where
  opening _ schema h := by
    rw [opening_eq]
    refine List.forall_mem_cons.mpr ⟨by decide, ?_⟩
    rw [List.forall_mem_singleton]
    split
    · simp +decide only [oneLine_append, h, and_self]
    · simp +decide only [oneLine_append, h, and_self]
  notes _ field _ := by
    simp only [printer]
    exact oneLine_quotedNote _ (by decide) (by decide) field.key
  declaration camel isLast field h := by
    have hname := Convention.keepsLines_kotlin.fieldName camel h.key
    have htype := Tokens.keepsLines_kotlin.spell h.type
    cases isLast with
    | true => simp +decide only [printer, naming, oneLine_append, hname, htype, and_self]
    | false => simp +decide only [printer, naming, oneLine_append, hname, htype, and_self]
  closing _ schema _ := by
    rw [closing_eq]
    split <;> decide
  first isRoot schema := ⟨_, _, opening_eq isRoot schema, by decide⟩
  last camel isRoot schema := by
    rw [FlatPrinter.block, opening_eq, closing_eq]
    cases hfields : schema.fields with
    | nil => simp [FlatPrinter.declarations]
    | cons field fields =>
      simp only [List.isEmpty_cons, Bool.false_eq_true, if_false, List.getLast?_concat]
      decide

lemma imports_eq (camel : Bool) (outline : Outline) :
    imports camel outline = printer.imports camel outline.schemas := by
  rw [imports, Outline.anyField_eq]
  rfl

end Kotlin

namespace TypeScript

def printer : FlatPrinter where
  opening _ schema := ["interface " ++ schema.name ++ " \x7b"]
  declaration camel _ field := "  " ++ property camel field
  closing _ _ := ["\x7d"]

lemma flatAll_eq_block (camel isRoot : Bool) (schema : Schema) :
    Item.flatAll (.spaces 2) 0 (definition camel schema) = printer.block camel isRoot schema := by
  have hindent : (Indent.spaces 2).times 1 = "  " := by decide
  have hfields := FlatPrinter.flatten_declarations_indented printer (property camel) hindent
    (by simp [property]) (fun _ => rfl) (fun _ _ => rfl) schema.fields
  rw [FlatPrinter.block, hfields]
  simp [definition, printer, Item.flatAll, Item.flat, Item.flatAll_lines]

lemma keepsLines_printer : printer.KeepsLines where
  opening _ schema h := by
    simp +decide only [printer, List.forall_mem_singleton, oneLine_append, h, and_self]
  notes _ _ _ := List.forall_mem_nil _
  declaration camel _ field h := by
    have hname := Convention.keepsLines_typeScript.fieldName camel h.key
    have htype := Tokens.keepsLines_typeScript.spell h.type
    have htoken : OneLine (propertyToken camel field.key) := by
      simp only [propertyToken]
      split
      · exact hname
      · exact Json.oneLine_quoted _
    simp +decide only [printer, property, oneLine_append, htoken, htype, and_self]
  closing _ _ _ := List.forall_mem_singleton.mpr (by decide)
  first _ schema := ⟨_, _, rfl, by simp⟩
  last _ isRoot _ := FlatPrinter.getLast?_block_ne (List.nil_append _).symm (by decide) isRoot

end TypeScript

namespace Go

def printer : FlatPrinter where
  opening _ schema := ["type " ++ schema.name ++ " struct \x7b"]
  declaration camel _ field := "\t" ++ fieldLine camel field
  closing _ _ := ["\x7d"]

lemma flatAll_eq_block (camel isRoot : Bool) (schema : Schema) :
    Item.flatAll .tab 0 (definition camel schema) = printer.block camel isRoot schema := by
  have hindent : Indent.tab.times 1 = "\t" := by decide
  have hfields := FlatPrinter.flatten_declarations_indented printer (fieldLine camel) hindent
    (by simp [fieldLine]) (fun _ => rfl) (fun _ _ => rfl) schema.fields
  rw [FlatPrinter.block, hfields]
  simp [definition, printer, Item.flatAll, Item.flat, Item.flatAll_lines]

lemma oneLine_tag (key : String) : OneLine (tag key) := by
  have hjson : OneLine ("json:" ++ Json.quoted key) :=
    (oneLine_append _ _).mpr ⟨by decide, Json.oneLine_quoted key⟩
  rw [tag, tagLiteral]
  split
  · have hescaped := oneLine_flatMap (f := escapeTagChar) (fun _ => rfl) hjson
    simp +decide only [oneLine_append, hescaped, and_self]
  · simp +decide only [oneLine_append, Json.oneLine_quoted, and_self]

lemma keepsLines_printer : printer.KeepsLines where
  opening _ schema h := by
    simp +decide only [printer, List.forall_mem_singleton, oneLine_append, h, and_self]
  notes _ _ _ := List.forall_mem_nil _
  declaration camel _ field h := by
    have hname := Convention.keepsLines_go.fieldName camel h.key
    have htype := Tokens.keepsLines_go.spell h.type
    have htag := oneLine_tag field.key
    simp +decide only [printer, fieldLine, oneLine_append, hname, htype, htag, and_self]
  closing _ _ _ := List.forall_mem_singleton.mpr (by decide)
  first _ schema := ⟨_, _, rfl, by simp⟩
  last _ isRoot _ := FlatPrinter.getLast?_block_ne (List.nil_append _).symm (by decide) isRoot

end Go

namespace Rust

def printer : FlatPrinter where
  imports _ _ := ["use serde::\x7bDeserialize, Serialize\x7d;"]
  opening _ schema :=
    ["#[derive(Debug, Clone, Serialize, Deserialize)]", "pub struct " ++ schema.name ++ " \x7b"]
  notes _ field :=
    if naming.renames false field.key then
      ["    " ++ ("#[serde(rename = " ++ Json.quoted field.key ++ ")]")] else []
  declaration _ _ field :=
    "    " ++ ("pub " ++ naming.fieldName false field.key ++ ": " ++
      Tokens.rust.spell field.type ++ ",")
  closing _ _ := ["\x7d"]

lemma map_indented_fieldLines (camel isLast : Bool) (field : Field) :
    (fieldLines field).map ((Indent.spaces 4).indented 1) =
      printer.notes camel field ++ [printer.declaration camel isLast field] := by
  simp only [fieldLines, printer]
  rw [← Convention.renames, FlatPrinter.map_indented_notes _ _ (by simp) (by simp), fourSpaces]

lemma flatAll_eq_block (camel isRoot : Bool) (schema : Schema) :
    Item.flatAll (.spaces 4) 0 (definition schema) = printer.block camel isRoot schema := by
  have hfields := FlatPrinter.flatten_declarations_noted (map_indented_fieldLines camel)
    schema.fields
  rw [FlatPrinter.block, hfields]
  simp [definition, printer, Item.flatAll, Item.flat, Item.flatAll_lines]

lemma keepsLines_printer : printer.KeepsLines where
  opening _ schema h := by
    refine List.forall_mem_cons.mpr ⟨by decide, List.forall_mem_singleton.mpr ?_⟩
    simp +decide only [oneLine_append, h, and_self]
  notes _ field _ := by
    simp only [printer]
    exact oneLine_quotedNote _ (by decide) (by decide) field.key
  declaration _ _ field h := by
    have hname := Convention.keepsLines_rust.fieldName false h.key
    have htype := Tokens.keepsLines_rust.spell h.type
    simp +decide only [printer, naming, oneLine_append, hname, htype, and_self]
  closing _ _ _ := List.forall_mem_singleton.mpr (by decide)
  first _ schema := ⟨_, _, rfl, by simp⟩
  last _ isRoot _ := FlatPrinter.getLast?_block_ne (List.nil_append _).symm (by decide) isRoot

end Rust

namespace CSharp

def printer : FlatPrinter where
  imports camel schemas :=
    (if schemas.any fun schema => schema.fields.any (·.type.isList) then
      ["using System.Collections.Generic;"] else []) ++
    (if schemas.any fun schema => schema.fields.any fun field => naming.renames camel field.key then
      ["using System.Text.Json.Serialization;"] else [])
  opening _ schema := ["public class " ++ schema.name, "\x7b"]
  notes camel field :=
    if naming.renames camel field.key then
      ["    " ++ ("[JsonPropertyName(" ++ Json.quoted field.key ++ ")]")] else []
  declaration camel _ field :=
    "    " ++ ("public " ++ Tokens.cSharp.spell field.type ++ " " ++
      naming.fieldName camel field.key ++ " \x7b get; set; \x7d")
  closing _ _ := ["\x7d"]

lemma map_indented_propertyLines (camel isLast : Bool) (field : Field) :
    (propertyLines camel field).map ((Indent.spaces 4).indented 1) =
      printer.notes camel field ++ [printer.declaration camel isLast field] := by
  simp only [propertyLines, printer]
  rw [← Convention.renames, FlatPrinter.map_indented_notes _ _ (by simp) (by simp), fourSpaces]

lemma flatAll_eq_block (camel isRoot : Bool) (schema : Schema) :
    Item.flatAll (.spaces 4) 0 (definition camel schema) = printer.block camel isRoot schema := by
  have hfields :=
    FlatPrinter.flatten_declarations_noted (map_indented_propertyLines camel) schema.fields
  rw [FlatPrinter.block, hfields]
  simp [definition, printer, Item.flatAll, Item.flat, Item.flatAll_lines]

lemma keepsLines_printer : printer.KeepsLines where
  opening _ schema h := by
    refine List.forall_mem_cons.mpr ⟨?_, List.forall_mem_singleton.mpr (by decide)⟩
    simp +decide only [oneLine_append, h, and_self]
  notes _ field _ := by
    simp only [printer]
    exact oneLine_quotedNote _ (by decide) (by decide) field.key
  declaration camel _ field h := by
    have hname := Convention.keepsLines_cSharp.fieldName camel h.key
    have htype := Tokens.keepsLines_cSharp.spell h.type
    simp +decide only [printer, naming, oneLine_append, hname, htype, and_self]
  closing _ _ _ := List.forall_mem_singleton.mpr (by decide)
  first _ schema := ⟨_, _, rfl, by simp⟩
  last _ isRoot _ := FlatPrinter.getLast?_block_ne (List.nil_append _).symm (by decide) isRoot

lemma usings_eq (camel : Bool) (outline : Outline) :
    usings camel outline = printer.imports camel outline.schemas := by
  rw [usings, Outline.anyField_eq, Outline.anyField_eq]
  rfl

end CSharp

namespace Dart

/-- Each class has its fields, and then reads and writes them in the same order. -/
def printer : FlatPrinter where
  opening _ schema := ["class " ++ schema.name ++ " \x7b"]
  declaration camel _ field := "  " ++ Dart.declaration camel field
  closing camel schema :=
    (if schema.fields.isEmpty then [] else [""]) ++
      ["  " ++ (schema.name ++ ".fromJson(Map<String, dynamic> json) \x7b")] ++
      schema.fields.map (fun field => "    " ++ readLine camel field) ++
      ["  \x7d", "", "  Map<String, dynamic> toJson() \x7b",
        "    final data = <String, dynamic>\x7b\x7d;"] ++
      schema.fields.map (fun field => "    " ++ writeLine camel field) ++
      ["    return data;", "  \x7d"] ++ ["\x7d"]

/-- The lines in the body of a method. -/
lemma map_indented_lines {line : Field → String} (hline : ∀ field, line field ≠ "")
    (fields : List Field) : (fields.map line).map ((Indent.spaces 2).indented 2) =
      fields.map fun field => "    " ++ line field := by
  have hindent : (Indent.spaces 2).times 2 = "    " := by decide
  rw [List.map_map]
  refine List.map_congr_left fun field _ => ?_
  rw [Function.comp_apply, Indent.indented_of_ne _ _ (hline field), hindent]

lemma declaration_ne (camel : Bool) (field : Field) : declaration camel field ≠ "" := by
  simp only [declaration]
  split <;> simp

lemma readLine_ne (camel : Bool) (field : Field) : readLine camel field ≠ "" := by simp [readLine]

lemma writeLine_ne (camel : Bool) (field : Field) : writeLine camel field ≠ "" := by
  simp [writeLine]

lemma flatAll_eq_block (camel isRoot : Bool) (schema : Schema) :
    Item.flatAll (.spaces 2) 0 (definition camel schema) = printer.block camel isRoot schema := by
  have hone : (Indent.spaces 2).times 1 = "  " := by decide
  have hfields := FlatPrinter.flatten_declarations_indented printer (declaration camel) hone
    (declaration_ne camel) (fun _ => rfl) (fun _ _ => rfl) schema.fields
  have hread := map_indented_lines (readLine_ne camel) schema.fields
  have hwrite := map_indented_lines (writeLine_ne camel) schema.fields
  have hblank : Item.flatAll (.spaces 2) 1 (if schema.fields.isEmpty then [] else [.blank]) =
      if schema.fields.isEmpty then [] else [""] := by
    split <;> rfl
  have hreader : (Indent.spaces 2).indented 1
      (schema.name ++ ".fromJson(Map<String, dynamic> json) \x7b") =
        "  " ++ (schema.name ++ ".fromJson(Map<String, dynamic> json) \x7b") := by
    rw [Indent.indented_of_ne _ _ (by simp), hone]
  have hwriter : (Indent.spaces 2).indented 1 "Map<String, dynamic> toJson() \x7b" =
      "  Map<String, dynamic> toJson() \x7b" := by decide
  have hdata : (Indent.spaces 2).indented 2 "final data = <String, dynamic>\x7b\x7d;" =
      "    final data = <String, dynamic>\x7b\x7d;" := by decide
  have hreturn : (Indent.spaces 2).indented 2 "return data;" = "    return data;" := by decide
  have hclose : (Indent.spaces 2).indented 1 "\x7d" = "  \x7d" := by decide
  rw [FlatPrinter.block, hfields]
  simp only [definition, printer, Item.flatAll, Item.flat, Item.flatAll_append, Item.flatAll_lines,
    Nat.zero_add, Nat.reduceAdd, Indent.indented_zero, hread, hwrite, hblank, hreader,
    hwriter, hdata, hreturn, hclose, List.append_nil, List.append_assoc, List.cons_append,
    List.nil_append]

lemma oneLine_singleQuoted {s : String} (h : OneLine s) : OneLine (singleQuoted s) := by
  have hescaped := oneLine_flatMap (f := escapeChar) (fun _ => rfl) h
  simp +decide only [singleQuoted, oneLine_append, hescaped, and_self]

lemma oneLine_declaration (camel : Bool) {field : Field} (h : field.Plain) :
    OneLine (declaration camel field) := by
  have hname := Convention.keepsLines_dart.fieldName camel h.key
  have htype := Tokens.keepsLines_dart.spell h.type
  simp only [declaration]
  split
  · simp +decide only [naming, oneLine_append, hname, and_self]
  · simp +decide only [naming, oneLine_append, hname, htype, and_self]

lemma oneLine_readLine (camel : Bool) {field : Field} (h : field.Plain) :
    OneLine (readLine camel field) := by
  have hname := Convention.keepsLines_dart.fieldName camel h.key
  have hkey := oneLine_singleQuoted h.key
  have hexpression : OneLine (readExpression field) := by
    obtain ⟨key, type⟩ := field
    have htype : type.Plain := h.type
    simp only [readExpression]
    split
    · simp +decide only [oneLine_append, hkey, and_self]
    · next name =>
      have hrecord : OneLine name := htype name rfl
      simp +decide only [oneLine_append, hkey, hrecord, and_self]
    · next name =>
      have hrecord : OneLine name := htype name rfl
      simp +decide only [oneLine_append, hkey, hrecord, and_self]
    · simp +decide only [oneLine_append, hkey, and_self]
    · simp +decide only [oneLine_append, hkey, and_self]
    · next element _ _ _ =>
      have helement : OneLine (Tokens.dart.spellElement element) :=
        Tokens.keepsLines_dart.spellElement htype
      simp +decide only [oneLine_append, hkey, helement, and_self]
    · simp +decide only [oneLine_append, hkey, and_self]
  simp +decide only [readLine, naming, oneLine_append, hname, hexpression, and_self]

lemma oneLine_writeLine (camel : Bool) {field : Field} (h : field.Plain) :
    OneLine (writeLine camel field) := by
  have hname := Convention.keepsLines_dart.fieldName camel h.key
  have hkey := oneLine_singleQuoted h.key
  have hexpression : OneLine (writeExpression field.type (naming.fieldName camel field.key)) := by
    rw [naming]
    unfold writeExpression
    split
    · simp +decide only [oneLine_append, hname, and_self]
    · simp +decide only [oneLine_append, hname, and_self]
    · exact hname
  simp +decide only [writeLine, oneLine_append, hkey, hexpression, and_self]

lemma keepsLines_printer : printer.KeepsLines where
  opening _ schema h := by
    simp +decide only [printer, List.forall_mem_singleton, oneLine_append, h, and_self]
  notes _ _ _ := List.forall_mem_nil _
  declaration camel _ field h := by
    simp +decide only [printer, oneLine_append, oneLine_declaration camel h, and_self]
  closing camel schema h := by
    have hread : ∀ l ∈ schema.fields.map (fun field => "    " ++ readLine camel field),
        OneLine l := by
      intro l hl
      obtain ⟨field, hfield, rfl⟩ := List.mem_map.mp hl
      exact (oneLine_append _ _).mpr ⟨by decide, oneLine_readLine camel (h.fields field hfield)⟩
    have hwrite : ∀ l ∈ schema.fields.map (fun field => "    " ++ writeLine camel field),
        OneLine l := by
      intro l hl
      obtain ⟨field, hfield, rfl⟩ := List.mem_map.mp hl
      exact (oneLine_append _ _).mpr ⟨by decide, oneLine_writeLine camel (h.fields field hfield)⟩
    have hblank : ∀ l ∈ (if schema.fields.isEmpty then [] else [""]), OneLine l := by
      split <;> decide
    have hreader :
        OneLine ("  " ++ (schema.name ++ ".fromJson(Map<String, dynamic> json) \x7b")) := by
      simp +decide only [oneLine_append, h.name, and_self]
    simp only [printer, List.forall_mem_append]
    exact ⟨⟨⟨⟨⟨⟨hblank, List.forall_mem_singleton.mpr hreader⟩, hread⟩, by decide⟩, hwrite⟩,
      by decide⟩, by decide⟩
  first _ schema := ⟨_, _, rfl, by simp⟩
  last _ isRoot _ := FlatPrinter.getLast?_block_ne rfl (by decide) isRoot

end Dart

end SampleTypes.Target
