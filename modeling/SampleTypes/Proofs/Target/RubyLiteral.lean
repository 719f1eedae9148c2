import Mathlib.Data.List.Infix
import SampleTypes.Proofs.Target.PhpLiteral
import SampleTypes.Proofs.Target.StringSyntax

/-! Texts of a sample in the literal that Ruby reads. Each of them stands in quotes as JSON writes
it, and nothing else in the literal does, so what Ruby makes of the literal depends on the texts
alone: it is the sample just if Ruby finds no interpolation in any of them. -/
namespace SampleTypes

open Json Layout

namespace Target

namespace HasLiterals

lemma quote_notMem_times (indent : Indent) (level : Nat) : '"' ∉ (indent.times level).toList :=
  fun h => absurd (indent.isGap_times level _ h) (by decide)

/-- Brackets and the layout between them add no quotes. -/
lemma bracketed {α : Type} {write : α → String} {texts : α → List String} (indent : Indent)
    (depth : Nat) {left right : String} (hleft : '"' ∉ left.toList) (hright : '"' ∉ right.toList)
    {xs : List α} (h : ∀ x ∈ xs, HasLiterals (write x) (texts x)) :
    HasLiterals (bracketed indent depth left right (xs.map write)) (xs.flatMap texts) := by
  have hitems : HasLiterals
      (",\n".intercalate ((xs.map write).map (indent.times (depth + 1) ++ ·)))
        (xs.flatMap texts) := by
    rw [List.map_map]
    apply intercalate (by decide)
    intro x hx
    exact (h x hx).after (quote_notMem_times indent (depth + 1))
  rw [Target.bracketed]
  split
  · next hempty =>
    obtain rfl : xs = [] := by simpa using hempty
    exact .plain (by simp [String.toList_append, hleft, hright])
  · apply before _ hright
    apply before _ (quote_notMem_times indent depth)
    apply before _ (by decide)
    apply HasLiterals.after _ hitems
    simp [String.toList_append, hleft]

end HasLiterals

namespace LiteralStyle

/-- The text of a key that stands in quotes. -/
def quotedKey (style : LiteralStyle) (key : String) : List String :=
  if style.keys = .symbol ∧ Name.isWord key then [] else [key]

mutual

/-- The texts that stand in quotes, in order: all strings, and the keys that are not written as
words. -/
def quotedTexts (style : LiteralStyle) : Json → List String
  | .null => []
  | .bool _ => []
  | .number _ => []
  | .string s => [s]
  | .array items => quotedTextsOfItems style items
  | .object members => quotedTextsOfMembers style members

def quotedTextsOfItems (style : LiteralStyle) : List Json → List String
  | [] => []
  | item :: items => quotedTexts style item ++ quotedTextsOfItems style items

def quotedTextsOfMembers (style : LiteralStyle) : Members → List String
  | [] => []
  | (key, value) :: members =>
    quotedKey style key ++ quotedTexts style value ++ quotedTextsOfMembers style members

end

/-- The texts in quotes of one member. -/
def quotedTextsOfMember (style : LiteralStyle) (m : String × Json) : List String :=
  style.quotedKey m.1 ++ style.quotedTexts m.2

lemma quotedTextsOfItems_eq_flatMap (style : LiteralStyle) (items : List Json) :
    style.quotedTextsOfItems items = items.flatMap style.quotedTexts := by
  induction items with
  | nil => rfl
  | cons item items ih => rw [quotedTextsOfItems, ih, List.flatMap_cons]

lemma quotedTextsOfMembers_eq_flatMap (style : LiteralStyle) (members : Members) :
    style.quotedTextsOfMembers members = members.flatMap style.quotedTextsOfMember := by
  induction members with
  | nil => rfl
  | cons m members ih => rw [quotedTextsOfMembers, ih, List.flatMap_cons, quotedTextsOfMember]

/-- Styles whose words have no quotes in them. -/
structure HasPlainWords (style : LiteralStyle) : Prop where
  null : '"' ∉ style.null.toList
  yes : '"' ∉ style.yes.toList
  no : '"' ∉ style.no.toList

lemma hasLiterals_key (style : LiteralStyle) (key : String) :
    HasLiterals (style.key key) (style.quotedKey key) := by
  rw [LiteralStyle.key, quotedKey]
  split_ifs with h
  · obtain ⟨c, cs, hkey, hplain⟩ := exists_cons_of_isWord h.2
    have hquote : '"' ∉ key.toList := by
      rw [hkey]
      exact fun hmem => (hplain '"' hmem).1 rfl
    exact (HasLiterals.plain hquote).before (by decide)
  · exact (HasLiterals.literal key).before (by decide)

/-- A literal holds the texts of its value in quotes, and has no other quotes. -/
theorem hasLiterals_write {style : LiteralStyle} (h : style.HasPlainWords)
    (depth : Nat) (v : Json) :
    HasLiterals (style.write depth v) (style.quotedTexts v) := by
  induction v generalizing depth with
  | null =>
    rw [write, quotedTexts]
    exact .plain h.null
  | bool b =>
    rw [write, quotedTexts]
    cases b with
    | true => exact .plain h.yes
    | false => exact .plain h.no
  | number n =>
    rw [write, quotedTexts]
    exact .plain fun hquote => absurd (n.isMark_text _ hquote) (by decide)
  | string s =>
    rw [write, quotedTexts]
    exact .literal s
  | array items ih =>
    rw [write, quotedTexts, writeItems_eq_map, quotedTextsOfItems_eq_flatMap]
    apply HasLiterals.bracketed _ _ (by decide) (by decide)
    intro item hitem
    exact ih item hitem (depth + 1)
  | object members ih =>
    rw [write, quotedTexts, writeMembers_eq_map, quotedTextsOfMembers_eq_flatMap]
    apply HasLiterals.bracketed _ _ (by decide) (by decide)
    intro m hm
    exact (style.hasLiterals_key m.1).append (ih m hm (depth + 1))

end LiteralStyle

namespace Ruby

open StringSyntax

/-- Letters behind a backslash, as far as they stand in literals here. -/
def letters : List (Char × Char) :=
  [('"', '"'), ('\\', '\\'), ('#', '#'), ('b', '\x08'), ('f', '\x0c'), ('n', '\n'), ('r', '\r'),
    ('t', '\t')]

/-- A number sign begins an interpolation before a brace, a dollar sign or an at sign. -/
def openers : List Char := ['\x7b', '$', '@']

/-- Strings in double quotes. -/
def strings : StringSyntax where
  quote := '"'
  letter? c := letters.lookup c
  opens c next := c == '#' && next.any openers.contains

/-- Whether an interpolation would begin in a text if it stood as it is. -/
def Interpolates (s : String) : Prop := ∃ d ∈ openers, ['#', d] <:+: s.toList

instance : DecidablePred Interpolates := fun s =>
  List.decidableBEx (fun d => ['#', d] <:+: s.toList) openers

lemma holdsJson : strings.HoldsJson where
  quote := rfl
  code := rfl
  opens := by
    intro c next h
    simp only [strings, Bool.and_eq_true, beq_iff_eq, Option.any_eq_true,
      List.contains_iff_mem] at h
    obtain ⟨rfl, d, rfl, hd⟩ := h
    have hplain : ∀ d ∈ openers, escapeChar d = [d] := by
      simp only [openers, List.forall_mem_cons, List.not_mem_nil, false_imp_iff, implies_true]
      decide
    exact ⟨d, rfl, by decide, hplain d hd⟩
  forbids _ _ := rfl

/-- All escapes of JSON are known. -/
lemma knows : ∀ c : Char, strings.Knows c := knows_of_letters (by decide)

lemma opens_iff {s : String} : strings.Opens s.toList ↔ Interpolates s := by
  constructor
  · rintro ⟨c, d, hopens, hpair⟩
    simp only [strings, Bool.and_eq_true, beq_iff_eq, Option.any_some,
      List.contains_iff_mem] at hopens
    obtain ⟨rfl, hd⟩ := hopens
    exact ⟨d, hd, hpair⟩
  · rintro ⟨d, hd, hpair⟩
    refine ⟨'#', d, ?_, hpair⟩
    simpa only [strings, Bool.and_eq_true, beq_iff_eq, Option.any_some,
      List.contains_iff_mem, true_and] using hd

lemma denotes_iff (s : String) : strings.Denotes (quoted s) s ↔ ¬Interpolates s := by
  rw [denotes_quoted_iff holdsJson, opens_iff]
  exact and_iff_right fun c _ => knows c

lemma evaluates_iff (s : String) : strings.Evaluates (quoted s) ↔ Interpolates s := by
  rw [evaluates_quoted_iff holdsJson fun c _ => knows c, opens_iff]

end Ruby

end Target

open Target

/-- The code for an array or an object has all texts of the sample in quotes, and no
other quotes. -/
lemma hasLiterals_ruby {v : Json}
    (hv : (∃ items, v = .array items) ∨ ∃ members, v = .object members) (root : String)
    (camel : Bool) :
    HasLiterals (Language.ruby.generate v root camel) (LiteralStyle.ruby.quotedTexts v) := by
  have hwords : LiteralStyle.ruby.HasPlainWords := ⟨by decide, by decide, by decide⟩
  rw [Language.generate_of_literal rfl hv]
  exact LiteralStyle.hasLiterals_write hwords 0 v

/-- Ruby reads a literal as the texts that it was written for just if none of them has a number
sign before a brace, a dollar sign or an at sign in it. Each text that has one is read as an
interpolation, and then the literal runs code of the sample. -/
theorem ruby_runs_iff_interpolates {v : Json}
    (hv : (∃ items, v = .array items) ∨ ∃ members, v = .object members) (root : String)
    (camel : Bool) :
    let code := (Language.ruby.generate v root camel).toList
    let texts := LiteralStyle.ruby.quotedTexts v
    (∀ s ∈ texts, (Ruby.strings.Denotes (quoted s) s ↔ ¬Ruby.Interpolates s) ∧
      (Ruby.strings.Evaluates (quoted s) ↔ Ruby.Interpolates s)) ∧
    (Ruby.strings.Texts code texts ↔ ∀ s ∈ texts, ¬Ruby.Interpolates s) ∧
    (Ruby.strings.Runs code ↔ ∃ s ∈ texts, Ruby.Interpolates s) := by
  intro code texts
  obtain ⟨htexts, hruns⟩ := (hasLiterals_ruby hv root camel).texts_iff_and_runs_iff Ruby.holdsJson
    fun s _ c _ => Ruby.knows c
  simp only [Ruby.opens_iff] at htexts hruns
  exact ⟨fun s _ => ⟨Ruby.denotes_iff s, Ruby.evaluates_iff s⟩, htexts, hruns⟩

/-- Number signs that stay alone, beside quotes, line ends and a word as a key; and one before a
brace in a key that is not a word, inside an array. -/
theorem ruby_runs_iff_interpolates_keys :
    let quiet : Json := .object [("a", .string "# \x7b"), ("b-#", .array [.string "\"\n\\#"])]
    let loud : Json := .array [.object [("a", .null), ("#\x7b1\x7d", .bool true)]]
    Ruby.strings.Texts (Language.ruby.generate quiet "Root" true).toList
      ["# \x7b", "b-#", "\"\n\\#"] ∧
    Ruby.strings.Runs (Language.ruby.generate loud "Root" true).toList := by
  intro quiet loud
  obtain ⟨-, htexts, -⟩ := @ruby_runs_iff_interpolates quiet (Or.inr ⟨_, rfl⟩) "Root" true
  obtain ⟨-, -, hruns⟩ := @ruby_runs_iff_interpolates loud (Or.inl ⟨_, rfl⟩) "Root" true
  exact ⟨htexts.mpr (by decide), hruns.mpr (by decide)⟩

/-- A text of the sample is evaluated. -/
theorem ruby_evaluates_a_text :
    let sample : Json := .object [("a", .string "#\x7b1\x7d")]
    Language.ruby.generate sample "Root" true = "\x7b\n  a: \"#\x7b1\x7d\"\n\x7d" ∧
    "#\x7b1\x7d" ∈ LiteralStyle.ruby.quotedTexts sample ∧
    ¬Ruby.strings.Denotes (quoted "#\x7b1\x7d") "#\x7b1\x7d" ∧
    Ruby.strings.Runs (Language.ruby.generate sample "Root" true).toList := by
  intro sample
  have hopens : Ruby.Interpolates "#\x7b1\x7d" := by decide
  refine ⟨by decide +kernel, by decide, ?_, ?_⟩
  · rw [Ruby.denotes_iff]
    exact not_not_intro hopens
  · have hliterals := @hasLiterals_ruby sample (Or.inr ⟨_, rfl⟩) "Root" true
    have hruns := (hliterals.texts_iff_and_runs_iff Ruby.holdsJson fun s _ c _ => Ruby.knows c).2
    exact hruns.mpr ⟨_, by decide, Ruby.opens_iff.mpr hopens⟩

end SampleTypes
