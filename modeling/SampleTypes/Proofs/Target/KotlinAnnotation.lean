import Mathlib.Data.List.Infix
import SampleTypes.Generate
import SampleTypes.Proofs.Target.FlatPrinters
import SampleTypes.Proofs.Target.StringSyntax

/-! Keys in the annotations of Kotlin properties. A key is written there as JSON writes it, and
Kotlin has no escape for a form feed and takes a dollar sign before a name or a brace for a
template, so not every key is read back as itself. -/
namespace SampleTypes

open Json

namespace Target.Kotlin

open Layout Text StringSyntax

/-- Letters behind a backslash. -/
def letters : List (Char × Char) :=
  [('t', '\t'), ('b', '\x08'), ('n', '\n'), ('r', '\r'), ('\'', '\''), ('"', '"'), ('\\', '\\'),
    ('$', '$')]

/-- A template begins with a dollar sign before a name or a brace. -/
def opensTemplate (isLetter : Char → Bool) (c : Char) (next : Option Char) : Bool :=
  c == '$' && next.any fun d => isLetter d || d == '_' || d == '\x7b'

/-- Strings on one line, for the letters that names are made of. -/
def strings (isLetter : Char → Bool) : StringSyntax where
  quote := '"'
  letter? c := letters.lookup c
  opens := opensTemplate isLetter
  forbids c := c == '\n' || c == '\r'

/-- Whether a template would begin in a text if it stood as it is. -/
def HasTemplate (isLetter : Char → Bool) (s : String) : Prop :=
  ∃ d, (isLetter d = true ∨ d = '_' ∨ d = '\x7b') ∧ ['$', d] <:+: s.toList

instance (isLetter : Char → Bool) : DecidablePred (HasTemplate isLetter) := fun s =>
  have hmem :
      (∃ d ∈ s.toList, (isLetter d = true ∨ d = '_' ∨ d = '\x7b') ∧ ['$', d] <:+: s.toList) ↔
      HasTemplate isLetter s := by
    constructor
    · rintro ⟨d, -, h⟩
      exact ⟨d, h⟩
    · rintro ⟨d, hd, hpair⟩
      exact ⟨d, hpair.subset (by simp), hd, hpair⟩
  @decidable_of_iff _ _ hmem (List.decidableBEx _ s.toList)

variable {isLetter : Char → Bool}

lemma opensTemplate_iff {c d : Char} : opensTemplate isLetter c (some d) = true ↔
    c = '$' ∧ (isLetter d = true ∨ d = '_' ∨ d = '\x7b') := by
  simp only [opensTemplate, Option.any_some, Bool.and_eq_true, Bool.or_eq_true,
    beq_iff_eq, or_assoc]

/-- Letters are none of the characters that JSON escapes. -/
def AreLetters (isLetter : Char → Bool) : Prop := ∀ c, isLetter c = true → escapeChar c = [c]

lemma areLetters_isAlpha : AreLetters Char.isAlpha := by
  intro c hc
  have hcontrol : ∀ n : Fin 32, (Char.ofNat n).isAlpha = false := by decide +kernel
  have hlow : 0x20 ≤ c.toNat := by
    by_contra hlow
    have hfalse := hcontrol ⟨c.toNat, by omega⟩
    rw [Char.ofNat_toNat, hc] at hfalse
    cases hfalse
  apply escapeChar_eq_self _ _ hlow
  · rintro rfl
    exact absurd hc (by decide)
  · rintro rfl
    exact absurd hc (by decide)

lemma holdsJson (h : AreLetters isLetter) : (strings isLetter).HoldsJson where
  quote := rfl
  code := rfl
  opens := by
    intro c next hopens
    cases next with
    | none => simp [strings, opensTemplate] at hopens
    | some d =>
      obtain ⟨rfl, hd⟩ := opensTemplate_iff.mp hopens
      refine ⟨d, rfl, by decide, ?_⟩
      rcases hd with hd | rfl | rfl
      · exact h d hd
      · decide
      · decide
  forbids := by
    intro c hc
    have hfeed : c ≠ '\n' := by
      rintro rfl
      exact absurd hc (by decide)
    have hreturn : c ≠ '\r' := by
      rintro rfl
      exact absurd hc (by decide)
    simp [strings, hfeed, hreturn]

/-- Only the escape of a form feed is unknown. -/
lemma knows_iff_ne (c : Char) : (strings isLetter).Knows c ↔ c ≠ '\x0c' := by
  have hall : ∀ p ∈ shortEscapes, letters.lookup p.2 = some p.1 ↔ p.1 ≠ '\x0c' := by decide
  rw [knows_iff]
  constructor
  · rintro h rfl
    have hmem : ('\x0c', 'f') ∈ shortEscapes := by decide
    exact (hall _ hmem).mp (h _ hmem rfl) rfl
  · rintro h p hp rfl
    exact (hall p hp).mpr h

lemma opens_iff_hasTemplate {s : String} :
    (strings isLetter).Opens s.toList ↔ HasTemplate isLetter s := by
  constructor
  · rintro ⟨c, d, hopens, hpair⟩
    obtain ⟨rfl, hd⟩ := opensTemplate_iff.mp hopens
    exact ⟨d, hd, hpair⟩
  · rintro ⟨d, hd, hpair⟩
    exact ⟨'$', d, opensTemplate_iff.mpr ⟨rfl, hd⟩, hpair⟩

lemma denotes_iff_of_letters (h : AreLetters isLetter) (s : String) :
    (strings isLetter).Denotes (quoted s) s ↔ '\x0c' ∉ s.toList ∧ ¬HasTemplate isLetter s := by
  rw [denotes_quoted_iff (holdsJson h), opens_iff_hasTemplate]
  simp only [knows_iff_ne]
  refine and_congr_left fun _ => ⟨fun hne hmem => hne _ hmem rfl, ?_⟩
  rintro hmem c hc rfl
  exact hmem hc

/-- The annotation of a renamed key is a line of the code. -/
lemma annotation_mem_lines {camel : Bool} {outline : Outline} {schema : Schema}
    (hschema : schema ∈ outline.schemas) {field : Field} (hfield : field ∈ schema.fields)
    (hrenamed : naming.renames camel field.key = true) :
    "    " ++ ("@SerialName(" ++ quoted field.key ++ ")") ∈ Text.lines (source camel outline) := by
  have hnote : "    " ++ ("@SerialName(" ++ quoted field.key ++ ")") ∈
      printer.notes camel field := by
    simp only [printer, hrenamed, if_true, List.mem_singleton]
  have honeLine : OneLine ("    " ++ ("@SerialName(" ++ quoted field.key ++ ")")) := by
    simp +decide only [oneLine_append, oneLine_quoted, and_self]
  have hne : "    " ++ ("@SerialName(" ++ quoted field.key ++ ")") ≠ "" := by simp
  exact mem_lines_withImports (flatAll_eq_block camel) hschema honeLine hne
    (FlatPrinter.mem_block_of_mem_notes hfield hnote)

end Target.Kotlin

open Target Text

/-- Every renamed key is written into an annotation, as a literal that Kotlin reads as the key
just if the key has no form feed, and no dollar sign before a letter, an underscore or a brace. -/
theorem annotation_denotes_key_iff {isLetter : Char → Bool} (hletter : Kotlin.AreLetters isLetter)
    {sample : Json} {object : Members} (hobject : sample.described? = some object) (root : String)
    (camel : Bool) :
    ∀ d ∈ definedObjects .bare (Name.type root) object, ∀ key ∈ d.2.keys,
      Kotlin.naming.renames camel key = true →
      "    " ++ ("@SerialName(" ++ quoted key ++ ")") ∈
        Text.lines (Language.kotlin.generate sample root camel) ∧
      ((Kotlin.strings isLetter).Denotes (quoted key) key ↔
        '\x0c' ∉ key.toList ∧ ¬Kotlin.HasTemplate isLetter key) := by
  intro d hd key hkey hrenamed
  refine ⟨?_, Kotlin.denotes_iff_of_letters hletter key⟩
  have hschema : Schema.ofMembers .bare d.1 d.2 ∈
      (Outline.ofObject .bare (Name.type root) object).schemas := by
    rw [Outline.schemas_ofObject]
    exact List.mem_map_of_mem hd
  have hfield : ∃ field ∈ (Schema.ofMembers .bare d.1 d.2).fields, field.key = key := by
    obtain ⟨m, hm, hm'⟩ := List.mem_map.mp hkey
    exact ⟨⟨m.1, FieldType.ofMember .bare d.1 m.1 m.2⟩, List.mem_map_of_mem hm, hm'⟩
  obtain ⟨field, hfield, rfl⟩ := hfield
  rw [Language.generate_of_definitions rfl hobject]
  exact Kotlin.annotation_mem_lines hschema hfield hrenamed

/-- A key in two words, one behind a dollar sign, and one with a dollar sign in it. -/
theorem annotation_denotes_key_iff_words :
    let object : Members := [("user_id", .null), ("$ref_id", .null), ("a$_b", .null)]
    let strings := Kotlin.strings Char.isAlpha
    (Kotlin.AreLetters Char.isAlpha ∧ (Json.object object).described? = some object ∧
      ∀ key ∈ object.keys, Kotlin.naming.renames true key = true) ∧
    strings.Denotes (quoted "user_id") "user_id" ∧ ¬strings.Denotes (quoted "$ref_id") "$ref_id" ∧
    ¬strings.Denotes (quoted "a$_b") "a$_b" := by
  intro object strings
  have hrenamed : ∀ key ∈ object.keys, Kotlin.naming.renames true key = true := by decide +kernel
  have hall := @annotation_denotes_key_iff Char.isAlpha Kotlin.areLetters_isAlpha (.object object)
    object rfl "Root" true
  have hroot : (Name.type "Root", object) ∈ definedObjects .bare (Name.type "Root") object :=
    List.mem_cons_self
  have hkeys : ∀ key ∈ object.keys, strings.Denotes (quoted key) key ↔
      '\x0c' ∉ key.toList ∧ ¬Kotlin.HasTemplate Char.isAlpha key := fun key hkey =>
    (hall _ hroot key hkey (hrenamed key hkey)).2
  refine ⟨⟨Kotlin.areLetters_isAlpha, rfl, hrenamed⟩, ?_, ?_, ?_⟩
  · exact (hkeys _ (by decide)).mpr (by decide +kernel)
  · exact (hkeys _ (by decide)).not.mpr (by decide +kernel)
  · exact (hkeys _ (by decide)).not.mpr (by decide +kernel)

/-- A key is evaluated. -/
theorem annotation_evaluates_a_key :
    let sample : Json := .object [("$ref_id", .number (.int 1))]
    let strings := Kotlin.strings Char.isAlpha
    Language.kotlin.generate sample "Root" true =
      "import kotlinx.serialization.SerialName\nimport kotlinx.serialization.Serializable\n\n" ++
        "@Serializable\ndata class Root(\n    @SerialName(\"$ref_id\")\n" ++
        "    val $refId: Int? = null\n)" ∧
    quoted "$ref_id" = "\"$ref_id\"" ∧ strings.Evaluates (quoted "$ref_id") ∧
    ¬strings.Denotes (quoted "$ref_id") "$ref_id" := by
  intro sample strings
  have hholds := Kotlin.holdsJson Kotlin.areLetters_isAlpha
  have hknows : ∀ c ∈ "$ref_id".toList, strings.Knows c := by
    intro c hc
    rw [Kotlin.knows_iff_ne]
    rintro rfl
    exact absurd hc (by decide)
  refine ⟨by decide +kernel, by decide, ?_, ?_⟩
  · rw [StringSyntax.evaluates_quoted_iff hholds hknows, Kotlin.opens_iff_hasTemplate]
    decide +kernel
  · rw [Kotlin.denotes_iff_of_letters Kotlin.areLetters_isAlpha]
    decide +kernel

end SampleTypes
