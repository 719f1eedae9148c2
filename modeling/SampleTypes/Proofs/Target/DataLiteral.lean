import SampleTypes.Generate
import SampleTypes.Proofs.Json.Reader

/-! Data literals read back. The layout of a literal puts line ends and indentation only where
blanks may stand, at every depth, so the literal of JSON itself is one more spelling of
its value. -/
namespace SampleTypes

open Json

namespace Layout.Indent

/-- Indentation is made of blanks, whatever the level. -/
lemma isGap_times (i : Indent) (level : Nat) : ∀ c ∈ (i.times level).toList, isGap c = true := by
  have hall : i.unit.toList.all isGap = true := by
    cases i with
    | spaces width =>
      simp only [unit]
      split_ifs <;> decide
    | tab => decide
  have hunit := List.all_eq_true.mp hall
  unfold times
  induction level with
  | zero => simp
  | succ level ih =>
    intro c hc
    rw [List.replicate_succ, String.join_cons, String.toList_append, List.mem_append] at hc
    rcases hc with hc | hc
    · exact hunit c hc
    · exact ih c hc

end Layout.Indent

namespace Target

open Layout

/-- A line end and indentation. -/
def lineGap (indent : Indent) (level : Nat) : List Char := '\n' :: (indent.times level).toList

lemma isGap_lineGap (indent : Indent) (level : Nat) :
    ∀ c ∈ lineGap indent level, isGap c = true :=
  List.forall_mem_cons.mpr ⟨by decide, indent.isGap_times level⟩

lemma intercalate_map_append (sep lead : List Char) {xs : List (List Char)} (h : xs ≠ []) :
    sep.intercalate (xs.map (lead ++ ·)) = lead ++ (sep ++ lead).intercalate xs := by
  induction xs with
  | nil => exact absurd rfl h
  | cons x xs ih =>
    cases xs with
    | nil => simp
    | cons y ys =>
      have hmore := ih (by simp)
      simp only [List.map_cons, List.intercalate_cons_cons] at hmore ⊢
      rw [hmore]
      simp only [List.append_assoc]

/-- Each item follows a line end and its indentation, and so does the closing bracket. -/
lemma toList_bracketed (indent : Indent) (depth : Nat) (left right : String) {items : List String}
    (h : items ≠ []) :
    (bracketed indent depth left right items).toList =
      left.toList ++ (lineGap indent (depth + 1) ++
        ((',' :: lineGap indent (depth + 1)).intercalate (items.map String.toList) ++
          (lineGap indent depth ++ right.toList))) := by
  have hmap : (items.map (indent.times (depth + 1) ++ ·)).map String.toList =
      (items.map String.toList).map ((indent.times (depth + 1)).toList ++ ·) := by
    simp only [List.map_map, Function.comp_def, String.toList_append]
  rw [bracketed, if_neg (by simpa using h)]
  simp only [String.toList_append, String.toList_intercalate, hmap]
  rw [intercalate_map_append _ _ (by simpa using h)]
  simp [lineGap, List.append_assoc]

namespace LiteralStyle

lemma writeItems_eq_map (style : LiteralStyle) (depth : Nat) (items : List Json) :
    writeItems style depth items = items.map (write style depth) := by
  induction items with
  | nil => rfl
  | cons item items ih => simp [writeItems, ih]

/-- A member as it stands in a literal. -/
def writeMember (style : LiteralStyle) (depth : Nat) (m : String × Json) : String :=
  style.key m.1 ++ write style depth m.2

lemma writeMembers_eq_map (style : LiteralStyle) (depth : Nat) (members : Members) :
    writeMembers style depth members = members.map (writeMember style depth) := by
  induction members with
  | nil => rfl
  | cons m members ih => obtain ⟨key, value⟩ := m; simp [writeMembers, writeMember, ih]

/-- A literal of JSON itself spells its value at any depth of the layout. -/
theorem spells_write_json {v : Json} (hv : v.IsWhole) {d : Nat} (hd : v.depth ≤ d) (depth : Nat) :
    Spells (readValue d) (write json depth v).toList v := by
  induction v generalizing d depth with
  | null => exact spells_null d
  | bool b => exact spells_bool d b
  | number n => exact spells_number d hv
  | string s => exact spells_string d s
  | array items ih =>
    obtain ⟨d, rfl, hdepth⟩ := exists_depth_of_array hd
    have hitems := ((all_array _ _).mp hv).2
    rw [write, writeItems_eq_map]
    by_cases hne : items = []
    · subst hne
      simpa [bracketed] using spells_empty_array d
    · have h := spells_array (fun i hi => ih i hi (hitems i hi) (hdepth i hi) (depth + 1)) hne
        (isGap_lineGap json.indent (depth + 1)) (isGap_lineGap json.indent (depth + 1))
        (isGap_lineGap json.indent depth)
      rw [toList_bracketed _ _ _ _ (by simpa using hne), List.map_map]
      exact h
  | object members ih =>
    obtain ⟨d, rfl, hdepth⟩ := exists_depth_of_object hd
    have hmembers := ((all_object _ _).mp hv).2
    have hmember : ∀ m ∈ members,
        Spells (readMember (readValue d)) (writeMember json (depth + 1) m).toList m := by
      intro m hm
      have hspace : ∀ c ∈ [' '], isGap c = true := List.forall_mem_singleton.mpr rfl
      have h := spells_member (ih m hm (hmembers m hm) (hdepth m hm) (depth + 1)) m.1 hspace
      simpa [writeMember, key, json, String.toList_append] using h
    rw [write, writeMembers_eq_map]
    by_cases hne : members = []
    · subst hne
      simpa [bracketed] using spells_empty_object d
    · have h := spells_object hmember hne
        (isGap_lineGap json.indent (depth + 1)) (isGap_lineGap json.indent (depth + 1))
        (isGap_lineGap json.indent depth)
      rw [toList_bracketed _ _ _ _ (by simpa using hne), List.map_map]
      exact h

end LiteralStyle

end Target

/-- The data of a JavaScript literal is JSON for exactly the sample that it was written for, with
the members of every object in their order. -/
theorem javaScript_data_reads_back {sample : Json}
    (hshape : (∃ items, sample = .array items) ∨ ∃ members, sample = .object members)
    (hwhole : sample.IsWhole) (hkeys : sample.HasDistinctKeys) (hdepth : sample.depth ≤ 127)
    (root : String) (camel : Bool) :
    ∃ data, Language.javaScript.generate sample root camel = "const data = " ++ data ++ ";" ∧
      Json.parse? data = some sample := by
  refine ⟨Target.LiteralStyle.json.write 0 sample, ?_, ?_⟩
  · rcases hshape with ⟨items, rfl⟩ | ⟨members, rfl⟩ <;> rfl
  · rw [parse?, read?_of_spells (Target.LiteralStyle.spells_write_json hwhole hdepth 0),
      Option.map_some, merged_eq_self hkeys]

/-- A sample with integers of both limits, an empty list, and quotes and control characters. -/
theorem javaScript_data_reads_back_limits :
    let sample : Json := .object
      [("z\"\n",
          .array [.number (.int 18446744073709551615), .number (.int (-9223372036854775808))]),
        ("", .array []), ("a\\", .string "\x00\t\x7f")]
    (sample.IsWhole ∧ sample.HasDistinctKeys ∧ sample.depth ≤ 127) ∧
      ∃ data, Language.javaScript.generate sample "Root" true = "const data = " ++ data ++ ";" ∧
        Json.parse? data = some sample := by
  intro sample
  have hwhole : sample.IsWhole := by simp [sample, IsWhole, Number.IsWord]
  have hkeys : sample.HasDistinctKeys := by simp [sample, HasDistinctKeys]
  have hdepth : sample.depth ≤ 127 := by decide
  exact ⟨⟨hwhole, hkeys, hdepth⟩,
    javaScript_data_reads_back (Or.inr ⟨_, rfl⟩) hwhole hkeys hdepth "Root" true⟩

end SampleTypes
