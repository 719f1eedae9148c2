import SampleTypes.Proofs.Name

/-! Short names in snake case, and the keys they come from. One character is left of one that is no
capital or loses its underscore again, and none of nothing else than an underscore. -/
namespace SampleTypes.Name

open Text

section Snake

variable {cs ws : List Char} {c d : Char}

lemma snakeChars_cons (c : Char) (cs : List Char) : snakeChars (c :: cs) =
    (if isUpperCase c then '_' :: lowerChars c else lowerChars c) ++ snakeChars cs := by
  rw [snakeChars, List.flatMap_cons, snakeChars]

lemma snakeChars_eq_nil_iff : snakeChars cs = [] ↔ cs = [] := by
  cases cs with
  | nil => exact iff_of_true rfl rfl
  | cons c cs =>
    rw [snakeChars_cons]
    split_ifs <;> simp [lowerChars_ne_nil]

/-- A lower case followed by more is one character just if nothing follows. -/
lemma lowerChars_append_eq_singleton_iff :
    lowerChars c ++ snakeChars cs = [d] ↔ lowerChars c = [d] ∧ cs = [] := by
  rw [List.append_eq_singleton_iff, snakeChars_eq_nil_iff]
  simp [lowerChars_ne_nil]

/-- An underscore is the lower case of itself only. -/
lemma lowerChars_eq_underscore_cons_iff : lowerChars c = '_' :: ws ↔ c = '_' ∧ ws = [] := by
  constructor
  · intro h
    have hmem : '_' ∈ lowerChars c := by
      rw [h]
      exact List.mem_cons_self
    obtain rfl : '_' = c := eq_of_mem_lowerChars hmem (by decide)
    exact ⟨rfl, (List.cons.inj h).2.symm⟩
  · rintro ⟨rfl, rfl⟩
    rfl

/-- One character comes from one that is no capital. -/
lemma snakeChars_eq_singleton_iff : snakeChars cs = [d] ↔
    ∃ c, cs = [c] ∧ isUpperCase c = false ∧ lowerChars c = [d] := by
  cases cs with
  | nil => simp [snakeChars]
  | cons c cs =>
    rw [snakeChars_cons]
    cases hupper : isUpperCase c with
    | true =>
      rw [if_pos rfl, List.cons_append]
      constructor
      · intro h
        have hrest := (List.cons.inj h).2
        rw [List.append_eq_nil_iff] at hrest
        exact absurd hrest.1 (lowerChars_ne_nil c)
      · rintro ⟨c', hcs, hc', -⟩
        rw [← (List.cons.inj hcs).1, hupper] at hc'
        contradiction
    | false =>
      rw [if_neg Bool.false_ne_true, lowerChars_append_eq_singleton_iff]
      constructor
      · rintro ⟨hc, rfl⟩
        exact ⟨c, rfl, hupper, hc⟩
      · rintro ⟨c', hcs, -, hc'⟩
        obtain ⟨rfl, rfl⟩ := List.cons.inj hcs
        exact ⟨hc', rfl⟩

/-- An underscore in front stands before a capital, or in the text itself. -/
lemma snakeChars_eq_underscore_cons_iff : snakeChars cs = '_' :: ws ↔
    (∃ c rest, cs = c :: rest ∧ isUpperCase c = true ∧ lowerChars c ++ snakeChars rest = ws) ∨
      ∃ rest, cs = '_' :: rest ∧ snakeChars rest = ws := by
  cases cs with
  | nil => simp [snakeChars]
  | cons c cs =>
    rw [snakeChars_cons]
    cases hupper : isUpperCase c with
    | true =>
      rw [if_pos rfl, List.cons_append]
      constructor
      · intro h
        exact Or.inl ⟨c, cs, rfl, hupper, (List.cons.inj h).2⟩
      · rintro (⟨c', rest, hcs, -, hws⟩ | ⟨rest, hcs, -⟩)
        · obtain ⟨rfl, rfl⟩ := List.cons.inj hcs
          rw [hws]
        · rw [(List.cons.inj hcs).1] at hupper
          contradiction
    | false =>
      rw [if_neg Bool.false_ne_true]
      constructor
      · intro h
        right
        obtain ⟨e, es, hlower⟩ := List.exists_cons_of_ne_nil (lowerChars_ne_nil c)
        rw [hlower, List.cons_append] at h
        obtain ⟨rfl, hws⟩ := List.cons.inj h
        obtain ⟨rfl, rfl⟩ := lowerChars_eq_underscore_cons_iff.mp hlower
        exact ⟨cs, rfl, hws⟩
      · rintro (⟨c', rest, hcs, hc', -⟩ | ⟨rest, hcs, hws⟩)
        · rw [← (List.cons.inj hcs).1, hupper] at hc'
          contradiction
        · obtain ⟨rfl, rfl⟩ := List.cons.inj hcs
          rw [← hws]
          rfl

lemma dropUnderscore_eq_iff :
    dropUnderscore cs = ws ↔ cs = '_' :: ws ∨ (cs = ws ∧ ws.head? ≠ some '_') := by
  unfold dropUnderscore
  split
  · next cs =>
    constructor
    · rintro rfl
      exact Or.inl rfl
    · rintro (h | ⟨rfl, h⟩)
      · exact (List.cons.inj h).2
      · exact absurd rfl h
  · next hne =>
    have hfirst : cs.head? ≠ some '_' := by
      intro h
      obtain ⟨rest, rfl⟩ := List.head?_eq_some_iff.mp h
      exact hne rest rfl
    constructor
    · rintro rfl
      exact Or.inr ⟨rfl, hfirst⟩
    · rintro (rfl | ⟨rfl, -⟩)
      · exact absurd rfl hfirst
      · rfl

/-- Snake case has no ASCII capitals. -/
lemma not_isUpper_of_mem_snakeCase {key : String} (h : d ∈ (snakeCase key).toList) :
    d.isUpper = false := by
  have hsnake : d ∈ snakeChars key.toList := by
    rw [snakeCase, String.toList_ofList] at h
    have hdrop := dropUnderscore_eq_iff.mp (Eq.refl (dropUnderscore (snakeChars key.toList)))
    rcases hdrop with hcs | ⟨hcs, -⟩
    · rw [hcs]
      exact List.mem_cons_of_mem _ h
    · rwa [hcs]
  obtain ⟨c, -, hd⟩ := List.mem_flatMap.mp hsnake
  split_ifs at hd
  · rcases List.mem_cons.mp hd with hd | hd
    · rw [hd]
      decide
    · exact not_isUpper_of_mem_lowerChars hd
  · exact not_isUpper_of_mem_lowerChars hd

end Snake

end SampleTypes.Name
