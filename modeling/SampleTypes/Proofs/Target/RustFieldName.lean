import SampleTypes.Generate
import SampleTypes.Proofs.Name.Snake
import SampleTypes.Proofs.Target.Renaming

/-! Which names of fields a Rust struct accepts. A key becomes such a name unless nothing but a
single underscore is left of it, which is no name. -/
namespace SampleTypes.Target.Rust

open Text

/-- A text of small letters, digits and underscores that is not empty and has no digit in front. -/
structure IsSnakeWord (name : String) : Prop where
  ne_empty : name ≠ ""
  chars : ∀ c ∈ name.toList, c.isLower = true ∨ c.isDigit = true ∨ c = '_'
  first : ∀ c, name.toList.head? = some c → c.isDigit = false

/-- A legal name of a field: a reserved word in its raw form, if it has one, or any other text in
snake case than the underscore alone. -/
inductive IsLegalName : String → Prop where
  | raw {word : String} : word ∈ naming.reserved → word ∉ ["self", "Self", "super", "crate"] →
      IsLegalName ("r#" ++ word)
  | word {name : String} : IsSnakeWord name → name ∉ naming.reserved → name ≠ "_" → IsLegalName name

/-- A key of which no letter or digit is left: it is empty, or it is one character that becomes a
single one in lower case, and no ASCII letter or digit. Unless it is a capital, an underscore may
stand before it. -/
inductive IsNameless : List Char → Prop where
  | empty : IsNameless []
  | single {c d : Char} : lowerChars c = [d] → d.isAlphanum = false → IsNameless [c]
  | underscore {c d : Char} : isUpperCase c = false → lowerChars c = [d] → d.isAlphanum = false →
      IsNameless ['_', c]

lemma wordChar_eq_underscore_iff (c : Char) : wordChar c = '_' ↔ c.isAlphanum = false := by
  rw [wordChar]
  split_ifs with h
  · rcases Bool.or_eq_true_iff.mp h with halnum | hc
    · have hne : c ≠ '_' := by
        rintro rfl
        contradiction
      simp [hne, halnum]
    · simp [of_decide_eq_true hc]
  · simp only [Bool.or_eq_true, not_or, Bool.not_eq_true] at h
    exact iff_of_true rfl h.1

lemma isNameless_iff_snakeChars {cs : List Char} : IsNameless cs ↔ Name.snakeChars cs = [] ∨
    ∃ d, d.isAlphanum = false ∧ (Name.snakeChars cs = [d] ∨ Name.snakeChars cs = ['_', d]) := by
  constructor
  · intro h
    cases h with
    | empty => exact Or.inl rfl
    | @single c d hlower hd =>
      refine Or.inr ⟨d, hd, ?_⟩
      cases hcase : isUpperCase c with
      | false => exact Or.inl (Name.snakeChars_eq_singleton_iff.mpr ⟨c, rfl, hcase, hlower⟩)
      | true =>
        right
        refine Name.snakeChars_eq_underscore_cons_iff.mpr (Or.inl ⟨c, [], rfl, hcase, ?_⟩)
        exact Name.lowerChars_append_eq_singleton_iff.mpr ⟨hlower, rfl⟩
    | @underscore c d hcase hlower hd =>
      have hrest := Name.snakeChars_eq_singleton_iff.mpr ⟨c, rfl, hcase, hlower⟩
      refine Or.inr ⟨d, hd, Or.inr ?_⟩
      exact Name.snakeChars_eq_underscore_cons_iff.mpr (Or.inr ⟨[c], rfl, hrest⟩)
  · rintro (h | ⟨d, hd, h | h⟩)
    · rw [Name.snakeChars_eq_nil_iff.mp h]
      exact .empty
    · obtain ⟨c, rfl, -, hlower⟩ := Name.snakeChars_eq_singleton_iff.mp h
      exact .single hlower hd
    · have hfirst := Name.snakeChars_eq_underscore_cons_iff.mp h
      rcases hfirst with ⟨c, rest, rfl, -, hrest⟩ | ⟨rest, rfl, hrest⟩
      · obtain ⟨hlower, rfl⟩ := Name.lowerChars_append_eq_singleton_iff.mp hrest
        exact .single hlower hd
      · obtain ⟨c, rfl, hcase, hlower⟩ := Name.snakeChars_eq_singleton_iff.mp hrest
        exact .underscore hcase hlower hd

/-- A single underscore is written for no character, and for one other than a letter or digit. -/
lemma snakeWord_eq_underscore_iff_snakeCase (key : String) :
    snakeWord key = "_" ↔ (Name.snakeCase key).toList = [] ∨
      ∃ d, (Name.snakeCase key).toList = [d] ∧ d.isAlphanum = false := by
  have hlist : ("_" : String).toList = ['_'] := rfl
  rw [← String.toList_inj, hlist, snakeWord]
  cases hcs : (Name.snakeCase key).toList with
  | nil => simp
  | cons c cs =>
    rw [List.map_cons]
    simp only [String.toList_ofList]
    constructor
    · intro h
      split_ifs at h with hdigit
      · simp at h
      · obtain ⟨hc, hrest⟩ := List.cons.inj h
        right
        exact ⟨c, by rw [List.map_eq_nil_iff.mp hrest], (wordChar_eq_underscore_iff c).mp hc⟩
    · rintro (h | ⟨d, h, hd⟩)
      · cases h
      · obtain ⟨rfl, rfl⟩ := List.cons.inj h
        rw [(wordChar_eq_underscore_iff c).mpr hd]
        rfl

/-- These are the keys of which nothing else is left. -/
lemma snakeWord_eq_underscore_iff (key : String) :
    snakeWord key = "_" ↔ IsNameless key.toList := by
  rw [snakeWord_eq_underscore_iff_snakeCase, isNameless_iff_snakeChars, Name.snakeCase,
    String.toList_ofList]
  constructor
  · rintro (h | ⟨d, h, hd⟩)
    · rcases Name.dropUnderscore_eq_iff.mp h with h | ⟨h, -⟩
      · exact Or.inr ⟨'_', by decide, Or.inl h⟩
      · exact Or.inl h
    · rcases Name.dropUnderscore_eq_iff.mp h with h | ⟨h, -⟩
      · exact Or.inr ⟨d, hd, Or.inr h⟩
      · exact Or.inr ⟨d, hd, Or.inl h⟩
  · rintro (h | ⟨d, hd, h | h⟩)
    · rw [h]
      exact Or.inl rfl
    · rw [h]
      by_cases hunderscore : d = '_'
      · subst hunderscore
        exact Or.inl rfl
      · refine Or.inr ⟨d, Name.dropUnderscore_eq_iff.mpr (Or.inr ⟨rfl, ?_⟩), hd⟩
        simpa using hunderscore
    · rw [h]
      exact Or.inr ⟨d, rfl, hd⟩

lemma isSnakeWord_snakeWord (key : String) : IsSnakeWord (snakeWord key) where
  ne_empty := by
    rw [snakeWord]
    split
    · decide
    · split_ifs <;> simp
  chars := by
    intro d hd
    have hsnake : ∀ c ∈ (Name.snakeCase key).toList, (wordChar c).isUpper = false := by
      intro c hc
      rw [wordChar]
      split_ifs
      · exact Name.not_isUpper_of_mem_snakeCase hc
      · decide
    have hupper : ∀ d ∈ (snakeWord key).toList, d.isUpper = false :=
      @forall_mem_snakeWord (fun d => d.isUpper = false) key (by decide) hsnake
    rcases Bool.or_eq_true_iff.mp (mem_snakeWord hd) with halnum | hunderscore
    · rcases Bool.or_eq_true_iff.mp halnum with halpha | hdigit
      · rcases Bool.or_eq_true_iff.mp halpha with hcapital | hsmall
        · rw [hupper d hd] at hcapital
          exact absurd hcapital Bool.false_ne_true
        · exact Or.inl hsmall
      · exact Or.inr (Or.inl hdigit)
    · exact Or.inr (Or.inr (of_decide_eq_true hunderscore))
  first := by
    intro d hd
    rw [snakeWord] at hd
    split at hd
    · obtain rfl : '_' = d := Option.some.inj hd
      decide
    · rw [String.toList_ofList] at hd
      split_ifs at hd with hdigit
      · obtain rfl : '_' = d := Option.some.inj hd
        decide
      · obtain rfl := Option.some.inj hd
        simpa using hdigit

lemma IsSnakeWord.addUnderscore {name : String} (h : IsSnakeWord name) :
    IsSnakeWord (addUnderscore name) := by
  obtain ⟨c, cs, hcs⟩ : ∃ c cs, name.toList = c :: cs :=
    List.exists_cons_of_ne_nil (by simpa using h.ne_empty)
  have hlist : (Target.addUnderscore name).toList = c :: (cs ++ ['_']) := by
    simp [Target.addUnderscore, hcs]
  have hchars := h.chars
  have hfirst := h.first
  rw [hcs] at hchars hfirst
  refine ⟨by simp [Target.addUnderscore, h.ne_empty], ?_, ?_⟩
  · rw [hlist, ← List.cons_append]
    exact List.forall_mem_append.mpr ⟨hchars, List.forall_mem_singleton.mpr (Or.inr (Or.inr rfl))⟩
  · rw [hlist]
    exact hfirst

/-- The single underscore is legal in neither form. -/
lemma IsLegalName.ne_underscore {name : String} (h : IsLegalName name) : name ≠ "_" := by
  cases h with
  | raw =>
    intro heq
    have hhead := congrArg (fun s => s.toList.head?) heq
    simp at hhead
  | word _ _ hne => exact hne

/-- Every other text in snake case is, once reserved words are escaped. -/
lemma isLegalName_safeName {word : String} (h : IsSnakeWord word) (hne : word ≠ "_") :
    IsLegalName (naming.safeName word) := by
  rw [Convention.safeName]
  split_ifs with hreserved
  · have hword : word ∈ naming.reserved := List.contains_iff_mem.mp hreserved
    have hrust : naming ∈ Convention.telling := by simp [naming, Convention.telling]
    have hescape := Convention.isReserved_escape hrust hword
    have hraw : naming.escape word = rawWord word := rfl
    rw [hraw, rawWord] at hescape ⊢
    split_ifs at hescape ⊢ with hself
    · have hfresh : addUnderscore word ∉ naming.reserved := by
        rwa [← List.contains_iff_mem, ← Convention.isReserved, Bool.not_eq_true]
      exact .word h.addUnderscore hfresh fun heq => h.ne_empty (String.append_eq_right_iff.mp heq)
    · exact .raw hword fun hmem => hself (List.contains_iff_mem.mpr hmem)
  · exact .word h (by simpa [Convention.isReserved] using hreserved) hne

/-- A field has a legal name unless its key is one of those of which only an underscore is left. -/
theorem isLegalName_fieldName_iff (camel : Bool) (key : String) :
    (IsLegalName (naming.fieldName camel key) ↔ ¬IsNameless key.toList) ∧
    (naming.fieldName camel key = "_" ↔ IsNameless key.toList) := by
  have hconvert : naming.convert camel key = snakeWord key := by simp only [naming, Convention.rust]
  have hlegal : snakeWord key ≠ "_" → IsLegalName (naming.fieldName camel key) := by
    rw [Convention.fieldName, hconvert]
    exact isLegalName_safeName (isSnakeWord_snakeWord key)
  have hname : naming.fieldName camel key = "_" ↔ snakeWord key = "_" := by
    constructor
    · intro h
      by_contra hne
      exact (hlegal hne).ne_underscore h
    · intro h
      rw [Convention.fieldName, hconvert, h]
      decide
  have hnameless := snakeWord_eq_underscore_iff key
  refine ⟨?_, hname.trans hnameless⟩
  rw [← hnameless]
  constructor
  · intro h hword
    exact h.ne_underscore (hname.mpr hword)
  · exact hlegal

/-- A key of one ideograph, and the code for it. -/
theorem ideograph_is_left_underscore :
    naming.fieldName true "名" = "_" ∧ ¬IsLegalName (naming.fieldName true "名") ∧
    Language.rust.generate (.object [("名", .number (.int 1))]) "Root" true =
      "use serde::\x7bDeserialize, Serialize\x7d;\n\n" ++
        "#[derive(Debug, Clone, Serialize, Deserialize)]\npub struct Root \x7b\n" ++
        "    #[serde(rename = \"名\")]\n    pub _: i64,\n\x7d" := by
  have hname : naming.fieldName true "名" = "_" := by decide +kernel
  exact ⟨hname, fun h => h.ne_underscore hname, by decide +kernel⟩

end SampleTypes.Target.Rust
