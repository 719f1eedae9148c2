import SampleTypes.Proofs.Layout.Page
import SampleTypes.Proofs.Schema
import SampleTypes.Target.Definitions

/-! Printing a list of schemas without nesting: a block of lines for each, and in it one
declaration for each field. Definitions of an outline print as such blocks with a blank line
between two. -/
namespace SampleTypes.Target

open Layout Text

/-- How one language prints schemas. No part of a block depends on any other schema. -/
structure FlatPrinter where
  imports : (camel : Bool) → List Schema → List String := fun _ _ => []
  /-- The lines of a block before its declarations. -/
  opening : (isRoot : Bool) → Schema → List String
  /-- The lines above the declaration of a field. -/
  notes : (camel : Bool) → Field → List String := fun _ _ => []
  /-- The line that declares a field. -/
  declaration : (camel isLast : Bool) → Field → String
  /-- The lines of a block after its declarations. -/
  closing : (camel : Bool) → Schema → List String

namespace FlatPrinter

/-- The declarations of fields in order, each with its notes. -/
def declarations (p : FlatPrinter) (camel : Bool) : List Field → List (List String)
  | [] => []
  | field :: fields =>
    (p.notes camel field ++ [p.declaration camel fields.isEmpty field]) ::
      p.declarations camel fields

def block (p : FlatPrinter) (camel isRoot : Bool) (schema : Schema) : List String :=
  p.opening isRoot schema ++ (p.declarations camel schema.fields).flatten ++ p.closing camel schema

/-- A block for each schema; the first of them is the root. -/
def blocks (p : FlatPrinter) (camel : Bool) : List Schema → List (List String)
  | [] => []
  | root :: schemas => p.block camel true root :: schemas.map (p.block camel false)

/-- The lines of imports and a blank line, or nothing if there are none. -/
def prologue (imports : List String) : String :=
  if imports.isEmpty then "" else "\n".intercalate imports ++ "\n\n"

def text (p : FlatPrinter) (camel : Bool) (schemas : List Schema) : String :=
  prologue (p.imports camel schemas) ++
    "\n\n".intercalate ((p.blocks camel schemas).map "\n".intercalate)

lemma text_of_no_imports {p : FlatPrinter} {camel : Bool} {schemas : List Schema}
    (h : p.imports camel schemas = []) : p.text camel schemas =
      "\n\n".intercalate ((p.blocks camel schemas).map "\n".intercalate) := by
  rw [text, h]
  exact String.empty_append

lemma length_declarations (p : FlatPrinter) (camel : Bool) (fields : List Field) :
    (p.declarations camel fields).length = fields.length := by
  induction fields with
  | nil => rfl
  | cons field fields ih => rw [declarations, List.length_cons, List.length_cons, ih]

/-- Each group of declarations is that of the field in its place. -/
lemma getElem?_declarations (p : FlatPrinter) (camel : Bool) (fields : List Field) (k : Nat) :
    (p.declarations camel fields)[k]? = fields[k]?.map fun field =>
      p.notes camel field ++ [p.declaration camel (k + 1 == fields.length) field] := by
  induction fields generalizing k with
  | nil => rfl
  | cons field fields ih =>
    rw [declarations]
    cases k with
    | zero =>
      have hlast : fields.isEmpty = (0 + 1 == (field :: fields).length) := by cases fields <;> rfl
      rw [List.getElem?_cons_zero, List.getElem?_cons_zero, Option.map_some, hlast]
    | succ k =>
      have hlast : (k + 1 == fields.length) = (k + 1 + 1 == (field :: fields).length) := by simp
      rw [List.getElem?_cons_succ, List.getElem?_cons_succ, ih, hlast]

/-- Lines that each stand on one line, the first and the last of them not empty. -/
structure IsBlock (ls : List String) : Prop where
  oneLine : ∀ l ∈ ls, OneLine l
  first : ∃ l tail, ls = l :: tail ∧ l ≠ ""
  last : ls.getLast? ≠ some ""

/-- A printer whose parts stand on one line each if those of the schema do, and whose blocks neither
begin nor end with an empty line. -/
structure KeepsLines (p : FlatPrinter) : Prop where
  opening : ∀ isRoot schema, OneLine schema.name → ∀ l ∈ p.opening isRoot schema, OneLine l
  notes : ∀ camel field, field.Plain → ∀ l ∈ p.notes camel field, OneLine l
  declaration : ∀ camel isLast field, field.Plain → OneLine (p.declaration camel isLast field)
  closing : ∀ camel schema, schema.Plain → ∀ l ∈ p.closing camel schema, OneLine l
  first : ∀ isRoot schema, ∃ l tail, p.opening isRoot schema = l :: tail ∧ l ≠ ""
  last : ∀ camel isRoot schema, (p.block camel isRoot schema).getLast? ≠ some ""

lemma KeepsLines.oneLine_declarations {p : FlatPrinter} (h : p.KeepsLines) (camel : Bool)
    {fields : List Field} (hfields : ∀ field ∈ fields, field.Plain) :
    ∀ l ∈ (p.declarations camel fields).flatten, OneLine l := by
  induction fields with
  | nil => exact List.forall_mem_nil _
  | cons field fields ih =>
    obtain ⟨hfield, hrest⟩ := List.forall_mem_cons.mp hfields
    have hnotes := h.notes camel field hfield
    have hdeclaration := h.declaration camel fields.isEmpty field hfield
    rw [declarations, List.flatten_cons]
    refine List.forall_mem_append.mpr ⟨List.forall_mem_append.mpr ⟨hnotes, ?_⟩, ih hrest⟩
    simpa using hdeclaration

/-- Every block of plain schemas is one of whole lines. -/
lemma KeepsLines.isBlock_block {p : FlatPrinter} (h : p.KeepsLines) (camel isRoot : Bool)
    {schema : Schema} (hschema : schema.Plain) : IsBlock (p.block camel isRoot schema) := by
  refine ⟨?_, ?_, h.last camel isRoot schema⟩
  · refine List.forall_mem_append.mpr ⟨List.forall_mem_append.mpr ⟨?_, ?_⟩, ?_⟩
    · exact h.opening isRoot schema hschema.name
    · exact h.oneLine_declarations camel hschema.fields
    · exact h.closing camel schema hschema
  · obtain ⟨l, tail, hopening, hl⟩ := h.first isRoot schema
    rw [block, hopening]
    exact ⟨l, _, rfl, hl⟩

lemma KeepsLines.isBlock_blocks {p : FlatPrinter} (h : p.KeepsLines) (camel : Bool)
    {schemas : List Schema} (hschemas : ∀ schema ∈ schemas, schema.Plain) :
    ∀ b ∈ p.blocks camel schemas, IsBlock b := by
  cases schemas with
  | nil => exact List.forall_mem_nil _
  | cons root schemas =>
    obtain ⟨hroot, hrest⟩ := List.forall_mem_cons.mp hschemas
    refine List.forall_mem_cons.mpr ⟨h.isBlock_block camel true hroot, ?_⟩
    intro b hb
    obtain ⟨schema, hschema, rfl⟩ := List.mem_map.mp hb
    exact h.isBlock_block camel false (hrest schema hschema)

/-- The notes of a field stand in the block of its schema. -/
lemma mem_block_of_mem_notes {p : FlatPrinter} {camel : Bool} {schema : Schema} {field : Field}
    (hfield : field ∈ schema.fields) {l : String} (hl : l ∈ p.notes camel field) (isRoot : Bool) :
    l ∈ p.block camel isRoot schema := by
  have hdeclarations : ∀ fields : List Field, field ∈ fields →
      l ∈ (p.declarations camel fields).flatten := by
    intro fields hfields
    induction fields with
    | nil => exact absurd hfields List.not_mem_nil
    | cons first fields ih =>
      rw [declarations, List.flatten_cons, List.mem_append]
      rcases List.mem_cons.mp hfields with rfl | hfields
      · exact Or.inl (List.mem_append_left _ hl)
      · exact Or.inr (ih hfields)
  exact List.mem_append_left _ (List.mem_append_right _ (hdeclarations _ hfield))

/-- Declarations that do not depend on what follows are lines for each field. -/
lemma flatten_declarations {p : FlatPrinter} {camel : Bool} {lines : Field → List String}
    (h : ∀ isLast field, p.notes camel field ++ [p.declaration camel isLast field] = lines field)
    (fields : List Field) : (p.declarations camel fields).flatten = fields.flatMap lines := by
  induction fields with
  | nil => rfl
  | cons field fields ih => rw [declarations, List.flatten_cons, h, ih, List.flatMap_cons]

lemma flatten_declarations_eq_map {p : FlatPrinter} {camel : Bool} {line : Field → String}
    (hnotes : ∀ field, p.notes camel field = [])
    (h : ∀ isLast field, p.declaration camel isLast field = line field) (fields : List Field) :
    (p.declarations camel fields).flatten = fields.map line := by
  have hlines : ∀ isLast field,
      p.notes camel field ++ [p.declaration camel isLast field] = [line field] := by
    intro isLast field
    rw [hnotes, h, List.nil_append]
  rw [flatten_declarations hlines, List.map_eq_flatMap]

/-- Declarations of one line each, in a block. -/
lemma flatten_declarations_indented (p : FlatPrinter) {camel : Bool} (line : Field → String)
    {indent : Indent} {unit : String} (hindent : indent.times 1 = unit)
    (hline : ∀ field, line field ≠ "") (hnotes : ∀ field, p.notes camel field = [])
    (h : ∀ isLast field, p.declaration camel isLast field = unit ++ line field)
    (fields : List Field) : (p.declarations camel fields).flatten =
      (fields.map line).map (indent.indented 1) := by
  rw [flatten_declarations_eq_map hnotes h, List.map_map]
  refine List.map_congr_left fun field _ => ?_
  rw [Function.comp_apply, Indent.indented_of_ne indent 1 (hline field), hindent]

/-- Declarations with the notes above them, in a block. -/
lemma flatten_declarations_noted {p : FlatPrinter} {camel : Bool} {indent : Indent}
    {lines : Field → List String}
    (h : ∀ isLast field, (lines field).map (indent.indented 1) =
      p.notes camel field ++ [p.declaration camel isLast field])
    (fields : List Field) : (p.declarations camel fields).flatten =
      (fields.flatMap lines).map (indent.indented 1) := by
  rw [List.map_flatMap]
  exact flatten_declarations (fun isLast field => (h isLast field).symm) fields

/-- A declaration with a note above it, in a block. -/
lemma map_indented_notes (indent : Indent) (noted : Bool) {note declaration : String}
    (hnote : note ≠ "") (hdeclaration : declaration ≠ "") :
    (if noted then [note, declaration] else [declaration]).map (indent.indented 1) =
      (if noted then [indent.times 1 ++ note] else []) ++ [indent.times 1 ++ declaration] := by
  cases noted with
  | false =>
    simp only [Bool.false_eq_true, if_false, List.map_cons, List.map_nil, List.nil_append,
      Indent.indented_of_ne indent 1 hdeclaration]
  | true =>
    simp only [if_true, List.map_cons, List.map_nil, List.singleton_append,
      Indent.indented_of_ne indent 1 hnote, Indent.indented_of_ne indent 1 hdeclaration]

/-- A block whose closing lines end with one that is not empty ends with that. -/
lemma getLast?_block_ne {p : FlatPrinter} {camel : Bool} {schema : Schema} {init : List String}
    {l : String} (h : p.closing camel schema = init ++ [l]) (hl : l ≠ "") (isRoot : Bool) :
    (p.block camel isRoot schema).getLast? ≠ some "" := by
  rw [block, h, ← List.append_assoc, List.getLast?_concat]
  exact fun heq => hl (Option.some.inj heq)

lemma IsBlock.ne_nil {ls : List String} (h : IsBlock ls) : ls ≠ [] := by
  obtain ⟨l, tail, rfl, -⟩ := h.first
  simp

/-- The lines of a block are cut out of its text again. -/
lemma IsBlock.lines_intercalate {ls : List String} (h : IsBlock ls) :
    Text.lines ("\n".intercalate ls) = ls :=
  Text.lines_intercalate h.oneLine fun _ hl hempty => h.last (hempty ▸ hl)

end FlatPrinter

open FlatPrinter

/-- Blocks after a first one, with a blank line before each of them. -/
def spread (bs : List (List String)) : List String := bs.flatMap ("" :: ·)

lemma spread_append (a b : List (List String)) : spread (a ++ b) = spread a ++ spread b :=
  List.flatMap_append

lemma intercalate_spread {b : List String} {bs : List (List String)} (hb : b ≠ [])
    (hbs : ∀ b ∈ bs, b ≠ []) : "\n".intercalate (b ++ spread bs) =
      "\n\n".intercalate ((b :: bs).map "\n".intercalate) := by
  induction bs generalizing b with
  | nil => simp [spread]
  | cons b' bs ih =>
    obtain ⟨hb', hbs⟩ := List.forall_mem_cons.mp hbs
    have hspread : b ++ spread (b' :: bs) = b ++ ("" :: (b' ++ spread bs)) := rfl
    obtain ⟨l, tail, hl⟩ : ∃ l tail, b' ++ spread bs = l :: tail :=
      List.exists_cons_of_ne_nil (by simp [hb'])
    have hbreak : "\n\n" = "\n" ++ "" ++ "\n" := by decide
    rw [hspread, String.intercalate_append_of_ne_nil hb (by simp), hl, String.intercalate_cons_cons,
      ← hl, ih hb' hbs, List.map_cons, List.map_cons, List.map_cons, String.intercalate_cons_cons,
      hbreak]
    simp only [String.append_assoc]

lemma isBlock_spread {b : List String} {bs : List (List String)} (hb : IsBlock b)
    (hbs : ∀ b ∈ bs, IsBlock b) : IsBlock (b ++ spread bs) := by
  induction bs generalizing b with
  | nil => simpa [spread] using hb
  | cons b' bs ih =>
    obtain ⟨hb', hbs⟩ := List.forall_mem_cons.mp hbs
    have hrest := ih hb' hbs
    have hspread : b ++ spread (b' :: bs) = b ++ ("" :: (b' ++ spread bs)) := rfl
    rw [hspread]
    refine ⟨?_, ?_, ?_⟩
    · exact List.forall_mem_append.mpr
        ⟨hb.oneLine, List.forall_mem_cons.mpr ⟨by decide, hrest.oneLine⟩⟩
    · obtain ⟨l, tail, rfl, hl⟩ := hb.first
      exact ⟨l, _, rfl, hl⟩
    · rw [List.append_cons, List.getLast?_append_of_ne_nil _ hrest.ne_nil]
      exact hrest.last

mutual

/-- The definitions of an outline are the lines of its root and, after a blank line each, those of
all schemas below. -/
lemma flatAll_definitions (indent : Indent) (define : Bool → Schema → List Item) (isRoot : Bool) :
    (outline : Outline) → Item.flatAll indent 0 (definitions define isRoot outline) =
      Item.flatAll indent 0 (define isRoot outline.schema) ++
        spread ((Outline.schemasOf outline.nested).map fun s =>
          Item.flatAll indent 0 (define false s))
  | .node schema nested => by
    rw [definitions, Item.flatAll_append, flatAll_nestedDefinitions indent define nested]
    rfl

lemma flatAll_nestedDefinitions (indent : Indent) (define : Bool → Schema → List Item) :
    (outlines : List Outline) → Item.flatAll indent 0 (nestedDefinitions define outlines) =
      spread ((Outline.schemasOf outlines).map fun s => Item.flatAll indent 0 (define false s))
  | [] => rfl
  | .node schema nested :: outlines => by
    rw [nestedDefinitions, Item.flatAll, Item.flatAll_append,
      flatAll_definitions indent define false (.node schema nested),
      flatAll_nestedDefinitions indent define outlines]
    simp [spread, Item.flat, Outline.schemasOf, Outline.schemas, Outline.schema, Outline.nested]

end

/-- The text of such lines does not end with a line break. -/
lemma getLast?_intercalate {ls : List String} (h : IsBlock ls) :
    ∃ c, ("\n".intercalate ls).toList.getLast? = some c ∧ c ≠ '\n' := by
  obtain ⟨init, last, rfl⟩ := (List.eq_nil_or_concat' ls).resolve_left h.ne_nil
  have hne : last ≠ "" := by
    have hlast := h.last
    rw [List.getLast?_concat] at hlast
    exact fun hempty => hlast (by rw [hempty])
  have hchars : last.toList ≠ [] := by simpa using hne
  obtain ⟨c, hc⟩ := Option.ne_none_iff_exists'.mp fun hnone =>
    hchars (List.getLast?_eq_none_iff.mp hnone)
  refine ⟨c, ?_, (h.oneLine last (by simp) c (List.mem_of_getLast? hc)).1⟩
  by_cases hinit : init = []
  · subst hinit
    simpa using hc
  · rw [String.intercalate_append_of_ne_nil hinit (by simp), String.intercalate_singleton,
      String.toList_append, List.getLast?_append_of_ne_nil _ hchars]
    exact hc

lemma blocks_schemas (p : FlatPrinter) (camel : Bool) (outline : Outline) :
    p.blocks camel outline.schemas = p.block camel true outline.schema ::
      (Outline.schemasOf outline.nested).map (p.block camel false) := by
  cases outline
  rfl

section Printing

variable {p : FlatPrinter} {camel : Bool} {indent : Indent} {define : Bool → Schema → List Item}
  {outline : Outline}

/-- The lines of definitions, if a printer knows those of every single one. -/
lemma flatAll_definitions_eq
    (hdefine : ∀ isRoot schema, Item.flatAll indent 0 (define isRoot schema) =
      p.block camel isRoot schema) :
    Item.flatAll indent 0 (definitions define true outline) =
      p.block camel true outline.schema ++
        spread ((Outline.schemasOf outline.nested).map (p.block camel false)) := by
  have hnested : (fun s => Item.flatAll indent 0 (define false s)) = p.block camel false := by
    funext s
    exact hdefine false s
  rw [flatAll_definitions, hdefine, hnested]

/-- Definitions print as blocks with a blank line between two. -/
theorem render_definitions
    (hdefine : ∀ isRoot schema, Item.flatAll indent 0 (define isRoot schema) =
      p.block camel isRoot schema)
    (hblocks : ∀ b ∈ p.blocks camel outline.schemas, IsBlock b) :
    Item.render indent (definitions define true outline) =
      "\n\n".intercalate ((p.blocks camel outline.schemas).map "\n".intercalate) := by
  rw [blocks_schemas] at hblocks ⊢
  obtain ⟨hroot, hnested⟩ := List.forall_mem_cons.mp hblocks
  rw [Item.render_eq, flatAll_definitions_eq hdefine,
    intercalate_spread hroot.ne_nil fun b hb => (hnested b hb).ne_nil]

/-- Import lines and a blank line go before other lines. -/
lemma intercalate_imports (imports : List String) {ls : List String} (hls : ls ≠ []) :
    "\n".intercalate (imports ++ ((if imports.isEmpty then [] else [""]) ++ ls)) =
      prologue imports ++ "\n".intercalate ls := by
  obtain ⟨l, tail, rfl⟩ := List.exists_cons_of_ne_nil hls
  cases imports with
  | nil => simp [prologue]
  | cons i imports =>
    have hbreak : "\n\n" = "\n" ++ "" ++ "\n" := by decide
    simp only [prologue, List.isEmpty_cons, Bool.false_eq_true, if_false, List.singleton_append]
    rw [String.intercalate_append_of_ne_nil (by simp) (by simp),
      String.intercalate_cons_cons, hbreak]
    simp only [String.append_assoc]

/-- Definitions below import lines that are on the same page. -/
theorem render_imports_definitions (imports : List String)
    (hdefine : ∀ isRoot schema, Item.flatAll indent 0 (define isRoot schema) =
      p.block camel isRoot schema)
    (hblocks : ∀ b ∈ p.blocks camel outline.schemas, IsBlock b) :
    Item.render indent (Item.lines imports ++
        ((if imports.isEmpty then [] else [.blank]) ++ definitions define true outline)) =
      prologue imports ++
        "\n\n".intercalate ((p.blocks camel outline.schemas).map "\n".intercalate) := by
  have hrender := render_definitions hdefine hblocks
  rw [blocks_schemas] at hblocks
  obtain ⟨hroot, -⟩ := List.forall_mem_cons.mp hblocks
  have hne : Item.flatAll indent 0 (definitions define true outline) ≠ [] := by
    rw [flatAll_definitions_eq hdefine]
    simp [hroot.ne_nil]
  have hblank : Item.flatAll indent 0 (if imports.isEmpty then [] else [.blank]) =
      if imports.isEmpty then [] else [""] := by
    split <;> rfl
  rw [← hrender, Item.render_eq, Item.render_eq, ← intercalate_imports imports hne,
    Item.flatAll_append, Item.flatAll_append, Item.flatAll_lines, Indent.map_indented_zero, hblank]

/-- Import lines, a blank line if there are any, and the lines of a finished text. -/
lemma withImports_eq (imports : List String) (body : String) : withImports imports body =
    "\n".intercalate (imports ++ ((if imports.isEmpty then [] else [""]) ++ Text.lines body)) := by
  rw [withImports, Page.putAll_eq, Item.flatAll_lines, Indent.map_indented_zero, Page.paste_eq]
  cases imports with
  | nil =>
    simp only [List.isEmpty_nil, if_true, Page.indent_add, Page.level_add, Indent.map_indented_zero,
      Page.add_add, Page.text_add, List.nil_append]
  | cons i imports =>
    simp only [List.isEmpty_cons, Bool.false_eq_true, if_false, Page.blank_eq, Page.indent_add,
      Page.level_add, Indent.map_indented_zero, Page.add_add, Page.text_add, List.append_assoc]

/-- The lines in the block of some schema are among those of all definitions. -/
lemma mem_flatAll_definitions
    (hdefine : ∀ isRoot schema, Item.flatAll indent 0 (define isRoot schema) =
      p.block camel isRoot schema)
    {schema : Schema} (hschema : schema ∈ outline.schemas) {l : String}
    (hmem : ∀ isRoot, l ∈ p.block camel isRoot schema) :
    l ∈ Item.flatAll indent 0 (definitions define true outline) := by
  rw [flatAll_definitions_eq hdefine, List.mem_append]
  cases outline with
  | node root nested =>
    rcases List.mem_cons.mp hschema with rfl | hnested
    · exact Or.inl (hmem true)
    · refine Or.inr (List.mem_flatMap.mpr ⟨_, List.mem_map_of_mem hnested, ?_⟩)
      exact List.mem_cons_of_mem _ (hmem false)

/-- What stands on one line in the block of some schema is a line of the code, even if other lines
are broken by names or keys. -/
lemma mem_lines_withImports {imports : List String}
    (hdefine : ∀ isRoot schema, Item.flatAll indent 0 (define isRoot schema) =
      p.block camel isRoot schema)
    {schema : Schema} (hschema : schema ∈ outline.schemas) {l : String} (hl : OneLine l)
    (hne : l ≠ "")
    (hmem : ∀ isRoot, l ∈ p.block camel isRoot schema) :
    l ∈ Text.lines
      (withImports imports (Item.render indent (definitions define true outline))) := by
  have hflat := mem_flatAll_definitions hdefine hschema hmem
  rw [withImports_eq, Item.render_eq]
  apply mem_lines_intercalate hl hne
  exact List.mem_append_right _ (List.mem_append_right _ (mem_lines_intercalate hl hne hflat))

/-- A text of blocks loses nothing when it is cut into lines again, below the imports. -/
theorem withImports_definitions (imports : List String)
    (hdefine : ∀ isRoot schema, Item.flatAll indent 0 (define isRoot schema) =
      p.block camel isRoot schema)
    (hblocks : ∀ b ∈ p.blocks camel outline.schemas, IsBlock b) :
    withImports imports (Item.render indent (definitions define true outline)) =
      prologue imports ++
        "\n\n".intercalate ((p.blocks camel outline.schemas).map "\n".intercalate) := by
  have hrender := render_definitions hdefine hblocks
  rw [blocks_schemas] at hblocks
  obtain ⟨hroot, hnested⟩ := List.forall_mem_cons.mp hblocks
  have hall := isBlock_spread hroot hnested
  rw [← flatAll_definitions_eq hdefine] at hall
  have hlines := hall.lines_intercalate
  rw [← hrender, Item.render_eq, ← intercalate_imports imports hall.ne_nil, withImports_eq, hlines]

end Printing

end SampleTypes.Target
