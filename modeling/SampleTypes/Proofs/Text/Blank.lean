import Mathlib.Data.List.TakeWhile
import SampleTypes.Proofs.Text.Case
import SampleTypes.Text.Blank

/-! Blanks and letters do not meet: what is blank has no letter case, so a text is trimmed in the
same places whatever the case of its letters. -/
namespace SampleTypes.Text

section Trim

variable {before cs after : List Char}

lemma trimChars_append_left (h : ∀ c ∈ before, isBlank c = true) :
    trimChars (before ++ cs) = trimChars cs := by
  rw [trimChars, List.dropWhile_append_of_pos h, trimChars]

lemma trimChars_append_right (h : ∀ c ∈ after, isBlank c = true) :
    trimChars (cs ++ after) = trimChars cs := by
  have hreverse : ∀ c ∈ after.reverse, isBlank c = true := fun c hc => h c (List.mem_reverse.mp hc)
  rw [trimChars, trimChars, List.dropWhile_append]
  split_ifs with hall
  · rw [List.isEmpty_iff.mp hall, List.dropWhile_eq_nil_iff.mpr h]
  · rw [List.reverse_append, List.dropWhile_append_of_pos hreverse]

/-- Blanks around a text are taken off. -/
theorem trim_append {before after : String} (hbefore : isBlankText before = true)
    (hafter : isBlankText after = true) (s : String) : trim (before ++ s ++ after) = trim s := by
  simp only [isBlankText, List.all_eq_true] at hbefore hafter
  rw [trim, String.toList_append, String.toList_append, trimChars_append_right hafter,
    trimChars_append_left hbefore, trim]

end Trim

lemma isBlank_toLower (c : Char) : isBlank c.toLower = isBlank c := by
  rw [Bool.eq_iff_iff]
  simp only [isBlank, toNat_toLower, Bool.or_eq_true, Bool.and_eq_true, decide_eq_true_eq,
    beq_iff_eq]
  split_ifs <;> omega

lemma trimChars_map_toLower (cs : List Char) :
    trimChars (cs.map Char.toLower) = (trimChars cs).map Char.toLower := by
  have hcomp : isBlank ∘ Char.toLower = isBlank := funext isBlank_toLower
  simp only [trimChars, List.dropWhile_map, ← List.map_reverse, hcomp]

/-- A trimmed text in lower case is the same for all texts that differ in the case of such
letters. -/
theorem lower_trim_congr {s t : String}
    (h : s.toList.map Char.toLower = t.toList.map Char.toLower) :
    lower (trim s) = lower (trim t) := by
  have hfold : ∀ s : String, lower (trim s) =
      .ofList ((trimChars (s.toList.map Char.toLower)).flatMap lowerChars) := by
    intro s
    rw [trimChars_map_toLower, List.flatMap_map, lower, trim, String.toList_ofList]
    simp only [lowerChars_toLower]
  rw [hfold s, hfold t, h]

end SampleTypes.Text
