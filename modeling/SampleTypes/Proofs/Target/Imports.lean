import SampleTypes.Generate
import SampleTypes.Proofs.Target.FlatPrinters

/-! Imports above the classes that need them. A need that arises anywhere in a sample, in a class
for an object inside others too, is one of the whole outline, and each import answers one need.
Names and keys that break a line leave the header as it is, since it ends where the first class
begins. -/
namespace SampleTypes

namespace Target

open Layout Text Json

/-- The lines of code above the first one that begins with `mark`. -/
def header (mark code : String) : List String :=
  (Text.lines code).takeWhile fun l => !startsWith mark l

/-- Code whose first class begins with `mark`, and whose header holds just the imports that
something needs: each of them once, in order, and a blank line unless there are none. -/
structure HasImports (mark : String) (needs : List (String × Prop)) (code : String) : Prop where
  first : ∃ l rest, Text.lines code = header mark code ++ l :: rest ∧ startsWith mark l = true
  needed : ∀ need ∈ needs, need.1 ∈ header mark code ↔ need.2
  once : (header mark code).Nodup
  blank : "" ∈ header mark code ↔ ∃ need ∈ needs, need.2
  nothingElse : ∃ imports, imports.Sublist (needs.map (·.1)) ∧
    header mark code = imports ++ if imports.isEmpty then [] else [""]

section Header

variable {mark : String} {flags : List (String × Bool)}

/-- The imports whose flags are set. -/
def flagged (flags : List (String × Bool)) : List String := (flags.filter (·.2)).map (·.1)

lemma flagged_sublist (flags : List (String × Bool)) :
    (flagged flags).Sublist (flags.map (·.1)) := List.filter_sublist.map _

/-- Import lines that differ from each other, from blank lines and from the classes. -/
structure AreImports (mark : String) (names : List String) : Prop where
  nodup : names.Nodup
  oneLine : ∀ name ∈ names, OneLine name
  ne : "" ∉ names
  apart : ∀ name ∈ names, startsWith mark name = false

lemma mem_flagged_iff (h : (flags.map (·.1)).Nodup) {flag : String × Bool} (hflag : flag ∈ flags) :
    flag.1 ∈ flagged flags ↔ flag.2 = true := by
  constructor
  · intro hmem
    obtain ⟨flag', hflag', hname⟩ := List.mem_map.mp hmem
    obtain ⟨hflag', hset⟩ := List.mem_filter.mp hflag'
    rwa [← List.inj_on_of_nodup_map h hflag' hflag hname]
  · intro hset
    exact List.mem_map_of_mem (List.mem_filter.mpr ⟨hflag, hset⟩)

lemma flagged_ne_nil_iff : flagged flags ≠ [] ↔ ∃ flag ∈ flags, flag.2 = true := by
  simp [flagged]

/-- A blank line stands below imports. -/
lemma mem_blank_iff {imports : List String} {l : String} :
    l ∈ (if imports.isEmpty then [] else [""]) ↔ imports ≠ [] ∧ l = "" := by
  cases imports <;> simp

/-- Neither imports nor the blank line below them are taken for a class. -/
lemma AreImports.apart_above (h : AreImports mark (flags.map (·.1))) (hmark : mark ≠ "") :
    ∀ l ∈ flagged flags ++ (if (flagged flags).isEmpty then [] else [""]),
      startsWith mark l = false := by
  intro l hl
  rcases List.mem_append.mp hl with hl | hl
  · exact h.apart l ((flagged_sublist flags).subset hl)
  · rw [(mem_blank_iff.mp hl).2, ← Bool.not_eq_true, startsWith_iff]
    rintro ⟨rest, hrest⟩
    exact hmark (String.append_eq_empty_iff.mp hrest.symm).1

/-- The header is what stands before the first class. -/
lemma header_eq {code : String} {above : List String} {l : String} {rest : List String}
    (hlines : Text.lines code = above ++ l :: rest)
    (habove : ∀ l ∈ above, startsWith mark l = false) (hl : startsWith mark l = true) :
    header mark code = above := by
  have hbefore : ∀ l ∈ above, (!startsWith mark l) = true :=
    fun l hmem => by rw [habove l hmem]; rfl
  rw [header, hlines, List.takeWhile_append_of_pos hbefore, List.takeWhile_cons, hl]
  exact List.append_nil above

/-- Flags that are set just where there is a need give the imports that are needed. -/
theorem hasImports_of_flags (hmark : mark ≠ "") (h : AreImports mark (flags.map (·.1)))
    {code l : String} {rest : List String}
    (hlines : Text.lines code = flagged flags ++
      ((if (flagged flags).isEmpty then [] else [""]) ++ l :: rest))
    (hl : startsWith mark l = true) :
    HasImports mark (flags.map fun flag => (flag.1, flag.2 = true)) code := by
  have hsublist := flagged_sublist flags
  have hempty : "" ∉ flagged flags := fun hmem => h.ne (hsublist.subset hmem)
  rw [← List.append_assoc] at hlines
  have hheader := header_eq hlines (h.apart_above hmark) hl
  refine ⟨⟨l, rest, by rw [hheader, hlines], hl⟩, ?_, ?_, ?_, ?_⟩
  · rw [hheader]
    refine List.forall_mem_map.mpr fun flag hflag => ?_
    rw [← mem_flagged_iff h.nodup hflag, List.mem_append, mem_blank_iff]
    apply or_iff_left
    rintro ⟨-, hname⟩
    exact h.ne (hname ▸ List.mem_map_of_mem hflag)
  · rw [hheader]
    apply (h.nodup.sublist hsublist).append
    · split <;> decide
    · intro l hmem hblank
      exact hempty ((mem_blank_iff.mp hblank).2 ▸ hmem)
  · rw [hheader, List.mem_append, or_iff_right hempty, mem_blank_iff, and_iff_left rfl,
      flagged_ne_nil_iff]
    simp only [List.mem_map, exists_exists_and_eq_and]
  · refine ⟨flagged flags, ?_, hheader⟩
    rw [List.map_map]
    exact hsublist

variable {p : FlatPrinter} {camel : Bool} {indent : Indent} {define : Bool → Schema → List Item}

/-- Imports stay above definitions, and the first line of these begins as the root's
opening does. -/
lemma lines_withImports {imports : List String} (himports : ∀ i ∈ imports, OneLine i)
    (hmark : OneLine mark) (hne : mark ≠ "") {outline : Outline}
    (hdefine : ∀ isRoot schema, Item.flatAll indent 0 (define isRoot schema) =
      p.block camel isRoot schema)
    (hopening : ∀ schema, ∃ l tail, p.opening true schema = l :: tail ∧ startsWith mark l = true) :
    ∃ l rest,
      Text.lines (withImports imports (Item.render indent (definitions define true outline))) =
        imports ++ ((if imports.isEmpty then [] else [""]) ++ l :: rest) ∧
      startsWith mark l = true := by
  have hblock : ∃ l tail, p.block camel true outline.schema = l :: tail ∧
      startsWith mark l = true := by
    obtain ⟨l, tail, htail, hl⟩ := hopening outline.schema
    rw [FlatPrinter.block, htail]
    exact ⟨l, _, rfl, hl⟩
  obtain ⟨l, tail, htail, hl⟩ := hblock
  have hflat := @flatAll_definitions_eq p camel indent define outline hdefine
  rw [htail, List.cons_append] at hflat
  obtain ⟨l', rest, hbody, hl'⟩ := exists_lines_intercalate_eq_cons hmark hne hl
    (tail ++ spread ((Outline.schemasOf outline.nested).map (p.block camel false)))
  obtain ⟨l'', rest', hlines, hl''⟩ := exists_lines_intercalate_eq_cons hmark hne hl' rest
  have habove : ∀ i ∈ imports ++ (if imports.isEmpty then [] else [""]), OneLine i := by
    refine List.forall_mem_append.mpr ⟨himports, ?_⟩
    split <;> decide
  refine ⟨l'', rest', ?_, hl''⟩
  rw [withImports_eq, Item.render_eq, hflat, hbody, ← List.append_assoc,
    lines_intercalate_append habove (List.cons_ne_nil _ _), hlines, List.append_assoc]

end Header

/-- Definitions below flagged imports have the imports that are needed. -/
lemma hasImports_withImports {mark : String} {flags : List (String × Bool)} {p : FlatPrinter}
    {camel : Bool} {indent : Indent} {define : Bool → Schema → List Item} {outline : Outline}
    (hmark : OneLine mark) (hne : mark ≠ "") (h : AreImports mark (flags.map (·.1)))
    (hdefine : ∀ isRoot schema, Item.flatAll indent 0 (define isRoot schema) =
      p.block camel isRoot schema)
    (hopening : ∀ schema, ∃ l tail, p.opening true schema = l :: tail ∧ startsWith mark l = true) :
    HasImports mark (flags.map fun flag => (flag.1, flag.2 = true))
      (withImports (flagged flags) (Item.render indent (definitions define true outline))) := by
  have himports : ∀ i ∈ flagged flags, OneLine i := fun i hi =>
    h.oneLine i ((flagged_sublist flags).subset hi)
  obtain ⟨l, rest, hlines, hl⟩ := lines_withImports himports hmark hne hdefine hopening
  exact hasImports_of_flags hne h hlines hl

/-- A note stands above a declaration just if the field is noted. -/
lemma mem_noted_iff {noted : Bool} {head note declaration : String}
    (hnote : startsWith head note = true) (hdeclaration : startsWith head declaration = false) :
    note ∈ (if noted then [note, declaration] else [declaration]) ↔ noted = true := by
  have hne : note ≠ declaration := by
    rintro rfl
    rw [hnote] at hdeclaration
    cases hdeclaration
  cases noted with
  | true => simp
  | false => simp [hne]

namespace Java

def needs (camel : Bool) (outline : Outline) : List (String × Bool) :=
  [("import com.fasterxml.jackson.annotation.JsonProperty;",
      outline.anyField fun field => naming.renames camel field.key),
    ("import java.util.List;", outline.anyField (·.type.isList))]

lemma imports_eq_flagged (camel : Bool) (outline : Outline) :
    imports camel outline = flagged (needs camel outline) := by
  rw [imports, needs]
  cases outline.anyField fun field => naming.renames camel field.key <;>
    cases outline.anyField (·.type.isList) <;> rfl

lemma hasImports_source (camel : Bool) (outline : Outline) : HasImports "public class "
    ((needs camel outline).map fun flag => (flag.1, flag.2 = true)) (source camel outline) := by
  have himports : AreImports "public class "
      ["import com.fasterxml.jackson.annotation.JsonProperty;", "import java.util.List;"] :=
    ⟨by decide, by decide, by decide, by decide⟩
  rw [source, imports_eq_flagged]
  refine hasImports_withImports (by decide) (by decide) himports (flatAll_eq_block camel) ?_
  intro schema
  refine ⟨_, [], rfl, startsWith_iff.mpr ⟨schema.name ++ " \x7b", ?_⟩⟩
  have hhead : "public " ++ "class " = "public class " := by decide
  rw [if_pos rfl, hhead, String.append_assoc]

lemma annotation_mem_fieldLines_iff (camel : Bool) (field : Field) :
    "@JsonProperty(" ++ quoted field.key ++ ")" ∈ fieldLines camel field ↔
      naming.renames camel field.key = true := by
  have hapart : Apart "@JsonProperty(" "private " := by decide
  rw [fieldLines, Convention.renames]
  simp only [String.append_assoc]
  exact mem_noted_iff (startsWith_append_self _ _) (hapart.startsWith_append _)

end Java

namespace Kotlin

def needs (camel : Bool) (outline : Outline) : List (String × Bool) :=
  [("import kotlinx.serialization.SerialName",
      outline.anyField fun field => naming.renames camel field.key),
    ("import kotlinx.serialization.Serializable", true)]

lemma imports_eq_flagged (camel : Bool) (outline : Outline) :
    imports camel outline = flagged (needs camel outline) := by
  rw [imports, needs]
  cases outline.anyField fun field => naming.renames camel field.key <;> rfl

lemma hasImports_source (camel : Bool) (outline : Outline) : HasImports "@Serializable"
    ((needs camel outline).map fun flag => (flag.1, flag.2 = true)) (source camel outline) := by
  have himports : AreImports "@Serializable"
      ["import kotlinx.serialization.SerialName", "import kotlinx.serialization.Serializable"] :=
    ⟨by decide, by decide, by decide, by decide⟩
  rw [source, imports_eq_flagged]
  refine hasImports_withImports (by decide) (by decide) himports (flatAll_eq_block camel) ?_
  intro schema
  exact ⟨_, _, opening_eq true schema, by decide⟩

lemma annotation_mem_parameterLines_iff (camel : Bool) (field : Field) (separator : String) :
    "@SerialName(" ++ quoted field.key ++ ")" ∈ parameterLines camel field separator ↔
      naming.renames camel field.key = true := by
  have hapart : Apart "@SerialName(" "val " := by decide
  rw [parameterLines, Convention.renames]
  simp only [String.append_assoc]
  exact mem_noted_iff (startsWith_append_self _ _) (hapart.startsWith_append _)

end Kotlin

namespace CSharp

def needs (camel : Bool) (outline : Outline) : List (String × Bool) :=
  [("using System.Collections.Generic;", outline.anyField (·.type.isList)),
    ("using System.Text.Json.Serialization;",
      outline.anyField fun field => naming.renames camel field.key)]

lemma usings_eq_flagged (camel : Bool) (outline : Outline) :
    usings camel outline = flagged (needs camel outline) := by
  rw [usings, needs]
  cases outline.anyField (·.type.isList) <;>
    cases outline.anyField fun field => naming.renames camel field.key <;> rfl

lemma hasImports_source (camel : Bool) (outline : Outline) : HasImports "public class "
    ((needs camel outline).map fun flag => (flag.1, flag.2 = true)) (source camel outline) := by
  have husings : AreImports "public class "
      ["using System.Collections.Generic;", "using System.Text.Json.Serialization;"] :=
    ⟨by decide, by decide, by decide, by decide⟩
  rw [source, usings_eq_flagged]
  refine hasImports_withImports (by decide) (by decide) husings (flatAll_eq_block camel) ?_
  intro schema
  exact ⟨_, _, rfl, startsWith_append_self _ _⟩

lemma attribute_mem_propertyLines_iff (camel : Bool) (field : Field) :
    "[JsonPropertyName(" ++ quoted field.key ++ ")]" ∈ propertyLines camel field ↔
      naming.renames camel field.key = true := by
  have hapart : Apart "[JsonPropertyName(" "public " := by decide
  rw [propertyLines, Convention.renames]
  simp only [String.append_assoc]
  exact mem_noted_iff (startsWith_append_self _ _) (hapart.startsWith_append _)

end CSharp

end Target

open Target Json

/-- Imports are there just if some class needs them, at whatever depth: those for annotations if
some field is renamed, and those for lists if some field is one. A renamed field carries the
annotation. -/
theorem imports_iff_needed {sample : Json} {object : Members}
    (hobject : sample.described? = some object) (root : String) (camel : Bool) :
    let schemas := (definedObjects .bare (Name.type root) object).map fun d =>
      Schema.ofMembers .bare d.1 d.2
    let renamed (c : Convention) : Prop :=
      ∃ schema ∈ schemas, ∃ field ∈ schema.fields, c.renames camel field.key = true
    let listed : Prop := ∃ schema ∈ schemas, ∃ field ∈ schema.fields, field.type.isList = true
    HasImports "public class "
      [("import com.fasterxml.jackson.annotation.JsonProperty;", renamed Java.naming),
        ("import java.util.List;", listed)] (Language.java.generate sample root camel) ∧
    HasImports "@Serializable"
      [("import kotlinx.serialization.SerialName", renamed Kotlin.naming),
        ("import kotlinx.serialization.Serializable", True)]
      (Language.kotlin.generate sample root camel) ∧
    HasImports "public class "
      [("using System.Collections.Generic;", listed),
        ("using System.Text.Json.Serialization;", renamed CSharp.naming)]
      (Language.cSharp.generate sample root camel) ∧
    ∀ field : Field,
      ("@JsonProperty(" ++ quoted field.key ++ ")" ∈ Java.fieldLines camel field ↔
        Java.naming.renames camel field.key = true) ∧
      (∀ separator, "@SerialName(" ++ quoted field.key ++ ")" ∈
        Kotlin.parameterLines camel field separator ↔
          Kotlin.naming.renames camel field.key = true) ∧
      ("[JsonPropertyName(" ++ quoted field.key ++ ")]" ∈ CSharp.propertyLines camel field ↔
        CSharp.naming.renames camel field.key = true) := by
  intro schemas renamed listed
  have hschemas : (Outline.ofObject .bare (Name.type root) object).schemas = schemas :=
    Outline.schemas_ofObject .bare (Name.type root) object
  have hany : ∀ p : Field → Bool,
      (Outline.ofObject .bare (Name.type root) object).anyField p = true ↔
      ∃ schema ∈ schemas, ∃ field ∈ schema.fields, p field = true := by
    intro p
    rw [Outline.anyField_eq, hschemas]
    simp only [List.any_eq_true]
  refine ⟨?_, ?_, ?_, fun field => ⟨?_, fun separator => ?_, ?_⟩⟩
  · rw [Language.generate_of_definitions rfl hobject]
    have h := Java.hasImports_source camel (Outline.ofObject .bare (Name.type root) object)
    simp only [Java.needs, List.map_cons, List.map_nil, hany] at h
    exact h
  · rw [Language.generate_of_definitions rfl hobject]
    have h := Kotlin.hasImports_source camel (Outline.ofObject .bare (Name.type root) object)
    simp only [Kotlin.needs, List.map_cons, List.map_nil, hany] at h
    exact h
  · rw [Language.generate_of_definitions rfl hobject]
    have h := CSharp.hasImports_source camel (Outline.ofObject .bare (Name.type root) object)
    simp only [CSharp.needs, List.map_cons, List.map_nil, hany] at h
    exact h
  · exact Java.annotation_mem_fieldLines_iff camel field
  · exact Kotlin.annotation_mem_parameterLines_iff camel field separator
  · exact CSharp.attribute_mem_propertyLines_iff camel field

/-- The only field that needs imports is a list in the class below the root, under a key that is
renamed where camel case is asked for; where it is not, Java and Kotlin need none for it. -/
theorem imports_iff_needed_nested :
    let order : Members := [("order", .object [("line_ids", .array [])])]
    let java (camel : Bool) := header "public class "
      (Language.java.generate (.object order) "Root" camel)
    let kotlin (camel : Bool) := header "@Serializable"
      (Language.kotlin.generate (.object order) "Root" camel)
    let cSharp := header "public class " (Language.cSharp.generate (.object order) "Root" true)
    (Json.object order).described? = some order ∧
    "import com.fasterxml.jackson.annotation.JsonProperty;" ∈ java true ∧
    "import com.fasterxml.jackson.annotation.JsonProperty;" ∉ java false ∧
    "import java.util.List;" ∈ java false ∧
    "import kotlinx.serialization.SerialName" ∈ kotlin true ∧
    "import kotlinx.serialization.SerialName" ∉ kotlin false ∧
    "using System.Collections.Generic;" ∈ cSharp ∧
    "using System.Text.Json.Serialization;" ∈ cSharp ∧ "" ∈ cSharp := by
  intro order java kotlin cSharp
  obtain ⟨hjava, hkotlin, hcSharp, -⟩ := @imports_iff_needed (.object order) order rfl "Root" true
  obtain ⟨hjava', hkotlin', -⟩ := @imports_iff_needed (.object order) order rfl "Root" false
  refine ⟨rfl, ?_, ?_, ?_, ?_, ?_, ?_, ?_, ?_⟩
  · exact (hjava.needed _ List.mem_cons_self).mpr (by decide +kernel)
  · exact (hjava'.needed _ List.mem_cons_self).not.mpr (by decide +kernel)
  · exact (hjava'.needed _ (List.mem_cons_of_mem _ List.mem_cons_self)).mpr (by decide +kernel)
  · exact (hkotlin.needed _ List.mem_cons_self).mpr (by decide +kernel)
  · exact (hkotlin'.needed _ List.mem_cons_self).not.mpr (by decide +kernel)
  · exact (hcSharp.needed _ List.mem_cons_self).mpr (by decide +kernel)
  · exact (hcSharp.needed _ (List.mem_cons_of_mem _ List.mem_cons_self)).mpr (by decide +kernel)
  · exact hcSharp.blank.mpr ⟨_, List.mem_cons_self, by decide +kernel⟩

end SampleTypes
