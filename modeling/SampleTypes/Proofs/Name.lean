import SampleTypes.Name
import SampleTypes.Proofs.Text.Case
import SampleTypes.Proofs.Text.Line

/-! Names out of keys. Conversion brings no line break into a name, and no backtick to an end of
it. -/
namespace SampleTypes.Name

open Text

section Kept

/-! A property of characters that conversion of case keeps passes from a key to its names. -/

variable {p : Char → Prop} {cs pending : List Char}

lemma forall_mem_camelChars (hupper : ∀ c, p c → ∀ d ∈ upperChars c, p d)
    (hpending : ∀ d ∈ pending, p d) (hcs : ∀ d ∈ cs, p d) : ∀ d ∈ camelChars pending cs, p d := by
  induction cs generalizing pending with
  | nil => exact hpending
  | cons c cs ih =>
    obtain ⟨hc, hcs⟩ := List.forall_mem_cons.mp hcs
    have hrest := ih (List.forall_mem_nil p) hcs
    rw [camelChars]
    split_ifs
    · exact ih (List.forall_mem_append.mpr ⟨hpending, by simpa using hc⟩) hcs
    · exact List.forall_mem_cons.mpr ⟨hc, hrest⟩
    · exact List.forall_mem_append.mpr ⟨hupper c hc, hrest⟩
    · exact List.forall_mem_append.mpr ⟨hpending, List.forall_mem_cons.mpr ⟨hc, hrest⟩⟩

lemma forall_mem_capitalChars (hupper : ∀ c, p c → ∀ d ∈ upperChars c, p d)
    (hcs : ∀ d ∈ cs, p d) : ∀ d ∈ capitalChars cs, p d := by
  cases cs with
  | nil => exact hcs
  | cons c cs =>
    obtain ⟨hc, hcs⟩ := List.forall_mem_cons.mp hcs
    exact List.forall_mem_append.mpr ⟨hupper c hc, hcs⟩

lemma forall_mem_uncapitalChars (hlower : ∀ c, p c → ∀ d ∈ lowerChars c, p d)
    (hcs : ∀ d ∈ cs, p d) : ∀ d ∈ uncapitalChars cs, p d := by
  cases cs with
  | nil => exact hcs
  | cons c cs =>
    obtain ⟨hc, hcs⟩ := List.forall_mem_cons.mp hcs
    exact List.forall_mem_append.mpr ⟨hlower c hc, hcs⟩

end Kept

lemma not_break_of_letter (d : Char) (h : 0x41 ≤ d.toNat) : d ≠ '\n' ∧ d ≠ '\r' := by
  constructor
  · rintro rfl
    exact absurd h (by decide)
  · rintro rfl
    exact absurd h (by decide)

/-- No line break comes with another case. -/
lemma not_break_upperChars (c : Char) (hc : c ≠ '\n' ∧ c ≠ '\r') :
    ∀ d ∈ upperChars c, d ≠ '\n' ∧ d ≠ '\r' := by
  intro d hd
  rcases mem_upperChars hd with rfl | h
  · exact hc
  · exact not_break_of_letter d h

lemma not_break_lowerChars (c : Char) (hc : c ≠ '\n' ∧ c ≠ '\r') :
    ∀ d ∈ lowerChars c, d ≠ '\n' ∧ d ≠ '\r' := by
  intro d hd
  rcases mem_lowerChars hd with rfl | h
  · exact hc
  · exact not_break_of_letter d (by omega)

lemma oneLine_camelCase {s : String} (h : OneLine s) : OneLine (camelCase s) :=
  (oneLine_ofList _).mpr (forall_mem_camelChars not_break_upperChars (List.forall_mem_nil _) h)

lemma oneLine_capitalize {s : String} (h : OneLine s) : OneLine (capitalize s) :=
  (oneLine_ofList _).mpr (forall_mem_capitalChars not_break_upperChars h)

lemma oneLine_uncapitalize {s : String} (h : OneLine s) : OneLine (uncapitalize s) :=
  (oneLine_ofList _).mpr (forall_mem_uncapitalChars not_break_lowerChars h)

theorem oneLine_property {s : String} (h : OneLine s) (camel : Bool) :
    OneLine (property camel s) := by
  cases camel with
  | true => exact oneLine_uncapitalize (oneLine_camelCase h)
  | false => exact oneLine_uncapitalize h

theorem oneLine_type {s : String} (h : OneLine s) : OneLine (type s) :=
  oneLine_capitalize (oneLine_camelCase h)

/-- The capital of an ASCII letter or digit is one character, again a letter or digit. -/
lemma upperChars_of_isAlphanum {c : Char} (h : c.isAlphanum = true) :
    upperChars c = [c.toUpper] ∧ c.toUpper.isAlphanum = true := by
  have hascii := toNat_lt_of_isAlphanum h
  have hcapital : c.isAlphanum = true → c.toUpper.isAlphanum = true :=
    @forall_ascii (fun c => c.isAlphanum = true → c.toUpper.isAlphanum = true) (by decide +kernel) _
      hascii
  exact ⟨upperChars_ascii hascii, hcapital h⟩

section Run

/-! Camel case takes a text by its runs: separators, and the character that ends them. -/

variable {run pending cs : List Char} {c : Char}

lemma camelChars_run_append (hrun : ∀ s ∈ run, isSeparator s = true) :
    camelChars pending (run ++ cs) = camelChars (pending ++ run) cs := by
  induction run generalizing pending with
  | nil => simp
  | cons s run ih =>
    obtain ⟨hs, hrun⟩ := List.forall_mem_cons.mp hrun
    rw [List.cons_append, camelChars, if_pos hs, ih hrun, List.append_assoc, List.singleton_append]

/-- A run at the end of a text stays. -/
lemma camelChars_separators (hrun : ∀ s ∈ run, isSeparator s = true) : camelChars [] run = run := by
  have h : camelChars [] (run ++ []) = camelChars ([] ++ run) [] := camelChars_run_append hrun
  simpa using h

/-- A run before an ASCII letter or digit is taken away and makes it a capital. Any other run
stays. -/
lemma camelChars_run_cons (hrun : ∀ s ∈ run, isSeparator s = true) (hc : isSeparator c = false)
    (cs : List Char) : camelChars [] (run ++ c :: cs) =
      (if run ≠ [] ∧ c.isAlphanum = true then [c.toUpper] else run ++ [c]) ++ camelChars [] cs := by
  rw [camelChars_run_append hrun, List.nil_append, camelChars, if_neg (by simp [hc])]
  by_cases hempty : run = []
  · simp [hempty]
  by_cases halnum : c.isAlphanum = true
  · simp [hempty, halnum, (upperChars_of_isAlphanum halnum).1]
  · simp [hempty, halnum]

/-- Whatever holds of a run at the end of a text, and passes from a text to the text with a run and
the character that ends it in front, holds of every text. -/
theorem run_induct {motive : List Char → Prop}
    (last : ∀ run, (∀ s ∈ run, isSeparator s = true) → motive run)
    (next : ∀ run c cs, (∀ s ∈ run, isSeparator s = true) → isSeparator c = false → motive cs →
      motive (run ++ c :: cs)) (cs : List Char) : motive cs := by
  -- The induction is on what follows the separators that are known to stand in front.
  have hrun : ∀ run, (∀ s ∈ run, isSeparator s = true) → motive (run ++ cs) := by
    induction cs with
    | nil =>
      intro run hrun
      rw [List.append_nil]
      exact last run hrun
    | cons c cs ih =>
      intro run hrun
      cases hc : isSeparator c with
      | true =>
        rw [List.append_cons]
        exact ih _ (List.forall_mem_append.mpr ⟨hrun, List.forall_mem_singleton.mpr hc⟩)
      | false => exact next run c cs hrun hc (ih [] (List.forall_mem_nil _))
  exact hrun [] (List.forall_mem_nil _)

lemma camelChars_ne_nil (h : cs ≠ []) : camelChars [] cs ≠ [] := by
  induction cs using run_induct with
  | last run hrun => rwa [camelChars_separators hrun]
  | next run c cs hrun hc _ =>
    rw [camelChars_run_cons hrun hc]
    split_ifs <;> simp

end Run

section Backtick

/-- A text with a backtick at one of its ends. -/
def Ticked (cs : List Char) : Prop := cs.head? = some '`' ∨ cs.getLast? = some '`'

lemma ne_of_isAlphanum {c : Char} (h : c.isAlphanum = true) : c ≠ '`' := by
  rintro rfl
  contradiction

/-- Camel case has a backtick in front only where the key has it. -/
lemma head?_camelChars {cs : List Char} (h : (camelChars [] cs).head? = some '`') :
    cs.head? = some '`' := by
  induction cs using run_induct with
  | last run hrun => rwa [camelChars_separators hrun] at h
  | next run c cs hrun hc _ =>
    rw [camelChars_run_cons hrun hc] at h
    split_ifs at h with hgone
    · have hcapital := (upperChars_of_isAlphanum hgone.2).2
      exact absurd (Option.some.inj h) (ne_of_isAlphanum hcapital)
    · cases run <;> exact h

/-- And at the end likewise. -/
lemma getLast?_camelChars {cs : List Char} (h : (camelChars [] cs).getLast? = some '`') :
    cs.getLast? = some '`' := by
  induction cs using run_induct with
  | last run hrun => rwa [camelChars_separators hrun] at h
  | next run c cs hrun hc ih =>
    rw [camelChars_run_cons hrun hc] at h
    rw [List.append_cons]
    by_cases hcs : cs = []
    · subst hcs
      rw [camelChars_nil, List.append_nil] at h
      rw [List.append_nil]
      split_ifs at h with hgone
      · have hcapital := (upperChars_of_isAlphanum hgone.2).2
        exact absurd (Option.some.inj h) (ne_of_isAlphanum hcapital)
      · exact h
    · rw [List.getLast?_append_of_ne_nil _ (camelChars_ne_nil hcs)] at h
      rw [List.getLast?_append_of_ne_nil _ hcs]
      exact ih h

lemma backtick_of_mem_lowerChars {c : Char} (h : '`' ∈ lowerChars c) : c = '`' :=
  (eq_of_mem_lowerChars h (by decide)).symm

lemma ticked_of_uncapitalChars {cs : List Char} (h : Ticked (uncapitalChars cs)) : Ticked cs := by
  cases cs with
  | nil => exact h
  | cons c cs =>
    rw [uncapitalChars] at h
    rcases h with h | h
    · left
      obtain ⟨d, ds, hlower⟩ := List.exists_cons_of_ne_nil (lowerChars_ne_nil c)
      rw [hlower] at h
      have hd : d = '`' := Option.some.inj h
      rw [backtick_of_mem_lowerChars (c := c) (by simp [hlower, hd])]
      rfl
    · by_cases hcs : cs = []
      · subst hcs
        rw [List.append_nil] at h
        left
        rw [backtick_of_mem_lowerChars (List.mem_of_getLast? h)]
        rfl
      · right
        rw [List.getLast?_append_of_ne_nil _ hcs] at h
        rwa [List.getLast?_cons_of_ne_nil hcs]

/-- A property name has a backtick at an end only if the key has one there. -/
theorem ticked_of_property {camel : Bool} {key : String}
    (h : Ticked (property camel key).toList) : Ticked key.toList := by
  rw [property, uncapitalize, String.toList_ofList] at h
  have hends := ticked_of_uncapitalChars h
  cases camel with
  | false => exact hends
  | true =>
    simp only [if_true, camelCase, String.toList_ofList] at hends
    rcases hends with hhead | hlast
    · exact Or.inl (head?_camelChars hhead)
    · exact Or.inr (getLast?_camelChars hlast)

end Backtick

end SampleTypes.Name
