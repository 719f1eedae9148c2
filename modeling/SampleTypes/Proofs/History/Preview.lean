import Mathlib.Data.List.Chain
import Mathlib.Data.List.TakeWhile
import SampleTypes.History.Row
import SampleTypes.Proofs.Text.Line

/-! Inputs on one line. To bring a text on one line keeps its words and sets one space between
two, and there is only one text like that. A line that is cut and closed by an ellipsis has no
other blanks than it had, so a preview is its own preview. -/
namespace SampleTypes

namespace Text

/-- Some characters, none of them blank. -/
structure IsWord (w : List Char) : Prop where
  ne_nil : w ≠ []
  not_blank : ∀ c ∈ w, isBlank c = false

/-- The only blanks are single spaces, each between two other characters. -/
structure IsTidy (cs : List Char) : Prop where
  spaces : ∀ c ∈ cs, isBlank c = true → c = ' '
  apart : cs.IsChain fun c d => isBlank c = true → isBlank d = false
  first : ∀ c ∈ cs.head?, isBlank c = false
  last : ∀ c ∈ cs.getLast?, isBlank c = false

variable {w cs rest : List Char}

/-! Words. -/

lemma IsWord.not_head (h : IsWord w) : ∀ c ∈ (w ++ rest).head?, isBlank c = false := by
  obtain ⟨d, w, rfl⟩ := List.exists_cons_of_ne_nil h.ne_nil
  intro c hc
  obtain rfl := Option.some.inj hc
  exact h.not_blank _ List.mem_cons_self

/-- What stands between cuts holds none of the characters that cut. -/
lemma not_of_mem_splitBy {p : Char → Bool} {piece : List Char} (h : piece ∈ splitBy p cs) :
    ∀ c ∈ piece, p c = false := by
  induction cs generalizing piece with
  | nil =>
    obtain rfl := List.mem_singleton.mp h
    exact List.forall_mem_nil _
  | cons c cs ih =>
    obtain ⟨first, pieces, hpieces⟩ := List.exists_cons_of_ne_nil (splitBy_ne_nil p cs)
    rw [hpieces] at ih
    rw [splitBy, hpieces] at h
    split_ifs at h with hc
    · obtain rfl | h := List.mem_cons.mp h
      · exact List.forall_mem_nil _
      · exact ih h
    · obtain rfl | h := List.mem_cons.mp h
      · exact List.forall_mem_cons.mpr ⟨by simpa using hc, ih List.mem_cons_self⟩
      · exact ih (List.mem_cons_of_mem _ h)

lemma isWord_of_mem_wordChars (h : w ∈ wordChars cs) : IsWord w := by
  obtain ⟨hmem, hne⟩ := List.mem_filter.mp h
  exact ⟨by simpa using hne, not_of_mem_splitBy hmem⟩

lemma wordChars_of_isWord (h : IsWord w) : wordChars w = [w] := by
  rw [wordChars, splitBy_of_all_not h.not_blank]
  simp [h.ne_nil]

lemma wordChars_append_cons (h : IsWord w) {c : Char} (hc : isBlank c = true) (rest : List Char) :
    wordChars (w ++ c :: rest) = w :: wordChars rest := by
  rw [wordChars, splitBy_append_cons h.not_blank hc, wordChars]
  simp [h.ne_nil]

/-- Words with one space between two are read back. -/
theorem wordChars_intercalate {ws : List (List Char)} (h : ∀ w ∈ ws, IsWord w) :
    wordChars ([' '].intercalate ws) = ws := by
  induction ws with
  | nil => rfl
  | cons w ws ih =>
    obtain ⟨hw, hws⟩ := List.forall_mem_cons.mp h
    cases ws with
    | nil => rw [List.intercalate_singleton, wordChars_of_isWord hw]
    | cons next ws =>
      rw [List.intercalate_cons_cons, List.append_assoc, List.singleton_append,
        wordChars_append_cons hw (by decide), ih hws]

/-- On one line a text has the words that it had. -/
theorem wordChars_oneLine (cs : List Char) : wordChars (oneLine cs) = wordChars cs :=
  wordChars_intercalate fun _ => isWord_of_mem_wordChars

/-! Tidy lines. -/

lemma IsTidy.of_isWord (h : IsWord w) : IsTidy w where
  spaces c hc hblank := absurd hblank (by simp [h.not_blank c hc])
  apart := by
    refine List.isChain_iff_forall_rel_of_append_cons_cons.mpr ?_
    rintro c d l₁ l₂ rfl -
    exact h.not_blank d (by simp)
  first c hc := h.not_blank c (List.mem_of_mem_head? hc)
  last c hc := h.not_blank c (List.mem_of_mem_getLast? hc)

lemma IsTidy.word_append (hw : IsWord w) (h : IsTidy rest) (hne : rest ≠ []) :
    IsTidy (w ++ ' ' :: rest) where
  spaces c hc hblank := by
    simp only [List.mem_append, List.mem_cons] at hc
    obtain hc | rfl | hc := hc
    · exact (IsTidy.of_isWord hw).spaces c hc hblank
    · rfl
    · exact h.spaces c hc hblank
  apart := by
    refine List.isChain_append.mpr ⟨(IsTidy.of_isWord hw).apart, ?_, fun c hc _ _ hblank => ?_⟩
    · exact List.isChain_cons.mpr ⟨fun d hd _ => h.first d hd, h.apart⟩
    · exact absurd hblank (by simp [hw.not_blank c (List.mem_of_mem_getLast? hc)])
  first := hw.not_head
  last c hc := by
    rw [List.getLast?_append_of_ne_nil _ (List.cons_ne_nil _ _),
      List.getLast?_cons_of_ne_nil hne] at hc
    exact h.last c hc

/-- Words with one space between two are a tidy line. -/
lemma isTidy_intercalate {ws : List (List Char)} (h : ∀ w ∈ ws, IsWord w) :
    IsTidy ([' '].intercalate ws) := by
  induction ws with
  | nil => exact ⟨by simp, by simp, by simp, by simp⟩
  | cons w ws ih =>
    obtain ⟨hw, hws⟩ := List.forall_mem_cons.mp h
    cases ws with
    | nil => rw [List.intercalate_singleton]; exact .of_isWord hw
    | cons next ws =>
      rw [List.intercalate_cons_cons, List.append_assoc, List.singleton_append]
      refine .word_append hw (ih hws) fun hnil => ?_
      have hwords := wordChars_intercalate hws
      rw [hnil] at hwords
      contradiction

theorem isTidy_oneLine (cs : List Char) : IsTidy (oneLine cs) :=
  isTidy_intercalate fun _ => isWord_of_mem_wordChars

lemma IsTidy.behind {b : Char} (h : IsTidy (w ++ b :: rest)) (hb : isBlank b = true) :
    IsTidy rest ∧ rest ≠ [] := by
  have hne : rest ≠ [] := by
    rintro rfl
    have hlast := h.last b (by simp)
    rw [hb] at hlast
    contradiction
  have hchain := List.isChain_cons.mp (List.isChain_append.mp h.apart).2.1
  refine ⟨⟨fun c hc => h.spaces c (by simp [hc]), hchain.2, fun c hc => hchain.1 c hc hb,
    fun c hc => h.last c ?_⟩, hne⟩
  rwa [List.getLast?_append_of_ne_nil _ (List.cons_ne_nil _ _), List.getLast?_cons_of_ne_nil hne]

/-- A tidy text with a blank in it is a word, a space and another tidy text. -/
lemma IsTidy.exists_word (h : IsTidy cs) (hblank : ¬∀ c ∈ cs, isBlank c = false) :
    ∃ w rest, cs = w ++ ' ' :: rest ∧ IsWord w ∧ IsTidy rest ∧ rest ≠ [] := by
  cases hdrop : cs.dropWhile (fun c => !isBlank c) with
  | nil => exact absurd (by simpa using List.dropWhile_eq_nil_iff.mp hdrop) hblank
  | cons b rest =>
    have hcs : cs = cs.takeWhile (fun c => !isBlank c) ++ b :: rest := by
      rw [← hdrop, List.takeWhile_append_dropWhile]
    have hb : isBlank b = true := by
      have hhead := List.head?_dropWhile_not (fun c => !isBlank c) cs
      rw [hdrop] at hhead
      simpa using hhead
    have hword : ∀ c ∈ cs.takeWhile (fun c => !isBlank c), isBlank c = false := by
      intro c hc
      simpa using List.mem_takeWhile_imp hc
    generalize cs.takeWhile (fun c => !isBlank c) = w at hcs hword
    subst hcs
    obtain ⟨htidy, hne⟩ := h.behind hb
    have hspace : b = ' ' := h.spaces b (by simp) hb
    refine ⟨w, rest, by rw [hspace], ⟨?_, hword⟩, htidy, hne⟩
    rintro rfl
    have hfirst := h.first b rfl
    rw [hb] at hfirst
    cases hfirst

lemma oneLine_of_isTidy {cs : List Char} (h : IsTidy cs) : oneLine cs = cs := by
  by_cases hblank : ∀ c ∈ cs, isBlank c = false
  · by_cases hnil : cs = []
    · rw [hnil]
      rfl
    · rw [oneLine, wordChars_of_isWord ⟨hnil, hblank⟩, List.intercalate_singleton]
  · obtain ⟨w, rest, rfl, hw, htidy, hne⟩ := h.exists_word hblank
    have hrest : oneLine rest = rest := oneLine_of_isTidy htidy
    obtain ⟨next, ws, hwords⟩ : ∃ next ws, wordChars rest = next :: ws := by
      refine List.exists_cons_of_ne_nil fun hnil => hne ?_
      rw [← hrest, oneLine, hnil]
      rfl
    rw [oneLine, hwords] at hrest
    rw [oneLine, wordChars_append_cons hw (by decide), hwords, List.intercalate_cons_cons, hrest,
      List.append_assoc, List.singleton_append]
termination_by cs.length

/-- A line is tidy just if there is nothing to do to it. -/
theorem oneLine_eq_self_iff : oneLine cs = cs ↔ IsTidy cs := by
  constructor
  · intro h
    rw [← h]
    exact isTidy_oneLine cs
  · exact oneLine_of_isTidy

/-- The line of a text is the only tidy one with the words of the text. -/
theorem eq_oneLine_iff {line : List Char} :
    line = oneLine cs ↔ IsTidy line ∧ wordChars line = wordChars cs := by
  constructor
  · rintro rfl
    exact ⟨isTidy_oneLine cs, wordChars_oneLine cs⟩
  · rintro ⟨htidy, hwords⟩
    rw [← oneLine_eq_self_iff.mpr htidy, oneLine, hwords, oneLine]

/-- A tidy line stays tidy if it is cut and ends in an ellipsis, wherever the cut is. -/
lemma IsTidy.take_append_ellipsis (h : IsTidy cs) (n : Nat) : IsTidy (cs.take n ++ ['…']) where
  spaces c hc hblank := by
    obtain hc | hc := List.mem_append.mp hc
    · exact h.spaces c (List.mem_of_mem_take hc) hblank
    · rw [List.mem_singleton.mp hc] at hblank
      contradiction
  apart := by
    refine List.isChain_append.mpr ⟨h.apart.take n, List.isChain_singleton _, fun c _ d hd _ => ?_⟩
    obtain rfl := Option.some.inj hd
    decide
  first c hc := by
    cases hcut : cs.take n with
    | nil =>
      rw [hcut] at hc
      obtain rfl := Option.some.inj hc
      decide
    | cons d ds =>
      rw [hcut] at hc
      obtain rfl := Option.some.inj hc
      have hhead : cs.head? = some d := by
        have hprefix := List.take_append_drop n cs
        rw [hcut] at hprefix
        rw [← hprefix]
        rfl
      exact h.first d hhead
  last c hc := by
    rw [List.getLast?_concat] at hc
    obtain rfl := Option.some.inj hc
    decide

end Text

namespace History

open Text

/-- A line of at most so many characters. -/
lemma length_preview_le (input : String) : (preview input).toList.length ≤ previewLength := by
  rw [preview, String.toList_ofList]
  split_ifs with hfits
  · exact hfits
  · simp only [List.length_append, List.length_take, List.length_singleton]
    unfold previewLength
    omega

lemma isTidy_preview (input : String) : IsTidy (preview input).toList := by
  rw [preview, String.toList_ofList]
  split_ifs
  · exact isTidy_oneLine _
  · exact (isTidy_oneLine _).take_append_ellipsis _

/-- A tidy line that fits is its own preview. -/
lemma preview_of_isTidy {line : String} (h : IsTidy line.toList)
    (hfits : line.toList.length ≤ previewLength) : preview line = line := by
  rw [preview, oneLine_eq_self_iff.mpr h, if_pos hfits, String.ofList_toList]

/-- A preview is a tidy line of at most 60 characters: the one line with the words of the input,
if that is as short, and else its first 59 characters and an ellipsis. It is the preview of
itself. -/
theorem preview_is_short_tidy_line (input : String) :
    let line := oneLine input.toList
    let shown := (preview input).toList
    (∀ other, other = line ↔ IsTidy other ∧ wordChars other = wordChars input.toList) ∧
    shown = (if line.length ≤ 60 then line else line.take 59 ++ ['…']) ∧
    shown.length ≤ 60 ∧ IsTidy shown ∧ preview (preview input) = preview input := by
  intro line shown
  have hshown : shown = if line.length ≤ 60 then line else line.take 59 ++ ['…'] := by
    change (preview input).toList = _
    rw [preview, String.toList_ofList]
    rfl
  exact ⟨fun _ => eq_oneLine_iff, hshown, length_preview_le input, isTidy_preview input,
    preview_of_isTidy (isTidy_preview input) (length_preview_le input)⟩

/-- The cut is right behind a space, and the ellipsis is a word of its own. -/
example : preview (.ofList (List.replicate 58 'x' ++ "\t\n yz".toList)) =
    .ofList (List.replicate 58 'x' ++ " …".toList) := by decide

end History

end SampleTypes
