import Mathlib.Data.List.Chain
import SampleTypes.Proofs.Name.Spelling

/-! Camel case, described by the runs of separators in a text. A run before an ASCII letter or
digit is taken away and makes it a capital, and all else stays as it is. No run that could be
taken away is left, so the conversion changes nothing the second time. -/
namespace SampleTypes.Name

open Text

/-- Separators, maybe none, and the character after them. -/
@[ext]
structure Piece where
  run : List Char
  ending : Char
  run_separators : ∀ c ∈ run, isSeparator c = true
  ending_other : isSeparator ending = false

/-- A text in pieces, and the separators behind the last one. So each run is one of all separators
between two other characters. -/
@[ext]
structure Cut where
  pieces : List Piece
  tail : List Char
  tail_separators : ∀ c ∈ tail, isSeparator c = true

def Piece.text (p : Piece) : List Char := p.run ++ [p.ending]

def Cut.text (k : Cut) : List Char := k.pieces.flatMap Piece.text ++ k.tail

/-- A capital in place of a letter or digit and the run before it; any other piece stays. -/
def Piece.camel (p : Piece) : List Char :=
  if p.run ≠ [] ∧ p.ending.isAlphanum = true then [p.ending.toUpper] else p.text

def Cut.camel (k : Cut) : List Char := k.pieces.flatMap Piece.camel ++ k.tail

/-- No separator stands directly before an ASCII letter or digit. -/
def IsJoined (cs : List Char) : Prop :=
  cs.IsChain fun c d => isSeparator c = true → d.isAlphanum = false

/-- The first character, if there is one, is its own lower case. -/
def IsUncapital (cs : List Char) : Prop := ∀ c ∈ cs.head?, lowerChars c = [c]

/-- The characters of a text but its separators, in lower case. -/
def folded (cs : List Char) : List Char := (cs.filter fun c => !isSeparator c).flatMap lowerChars

section Cut

variable {cs rest run : List Char}

/-- Pieces are converted one after the other. -/
lemma camelChars_piece_append (p : Piece) (cs : List Char) :
    camelChars [] (p.text ++ cs) = p.camel ++ camelChars [] cs := by
  rw [Piece.camel, Piece.text, List.append_assoc, List.singleton_append,
    camelChars_run_cons p.run_separators p.ending_other]

theorem camelChars_text (k : Cut) : camelChars [] k.text = k.camel := by
  have hpieces : ∀ pieces : List Piece, camelChars [] (pieces.flatMap Piece.text ++ k.tail) =
      pieces.flatMap Piece.camel ++ camelChars [] k.tail := by
    intro pieces
    induction pieces with
    | nil => rfl
    | cons p pieces ih =>
      rw [List.flatMap_cons, List.append_assoc, camelChars_piece_append, ih, List.flatMap_cons,
        List.append_assoc]
  rw [Cut.text, hpieces, camelChars_separators k.tail_separators, Cut.camel]

/-- A character before the text of a cut is a piece of its own, or joins the run of the first
piece. -/
def Cut.cons (c : Char) (k : Cut) : Cut :=
  if hc : isSeparator c = true then
    match k.pieces with
    | [] => ⟨[], c :: k.tail, List.forall_mem_cons.mpr ⟨hc, k.tail_separators⟩⟩
    | p :: pieces =>
      ⟨⟨c :: p.run, p.ending, List.forall_mem_cons.mpr ⟨hc, p.run_separators⟩, p.ending_other⟩ ::
        pieces, k.tail, k.tail_separators⟩
  else
    ⟨⟨[], c, List.forall_mem_nil _, by simpa using hc⟩ :: k.pieces, k.tail, k.tail_separators⟩

@[simp] lemma Cut.text_cons (c : Char) (k : Cut) : (k.cons c).text = c :: k.text := by
  obtain ⟨pieces, tail, htail⟩ := k
  unfold Cut.cons
  split_ifs with hc
  · cases pieces with
    | nil => rfl
    | cons p pieces => simp [Cut.text, Piece.text]
  · simp [Cut.text, Piece.text]

lemma Cut.exists_text_eq (cs : List Char) : ∃ k : Cut, k.text = cs := by
  induction cs with
  | nil => exact ⟨⟨[], [], List.forall_mem_nil _⟩, rfl⟩
  | cons c cs ih =>
    obtain ⟨k, rfl⟩ := ih
    exact ⟨k.cons c, k.text_cons c⟩

/-- Runs end at the first character that is no separator. -/
lemma run_eq_of_append_eq {run' rest' : List Char} {c c' : Char}
    (hrun : ∀ s ∈ run, isSeparator s = true) (hrun' : ∀ s ∈ run', isSeparator s = true)
    (hc : isSeparator c = false) (hc' : isSeparator c' = false)
    (h : run ++ c :: rest = run' ++ c' :: rest') : run = run' ∧ c = c' ∧ rest = rest' := by
  have hspan : ∀ (rest : List Char) {run : List Char} {c : Char},
      (∀ s ∈ run, isSeparator s = true) →
      isSeparator c = false → (run ++ c :: rest).takeWhile isSeparator = run := by
    intro rest run c hrun hc
    rw [List.takeWhile_append_of_pos hrun, List.takeWhile_cons_of_neg (by simp [hc]),
      List.append_nil]
  have heq : run = run' := by
    rw [← hspan rest hrun hc, h, hspan rest' hrun' hc']
  subst heq
  exact ⟨rfl, List.cons.inj (List.append_cancel_left h)⟩

/-- A text is cut in one way only. -/
lemma Cut.text_injective : Function.Injective Cut.text := by
  rintro ⟨pieces, tail, htail⟩ ⟨pieces', tail', htail'⟩ h
  simp only [Cut.text] at h
  have hnone : ∀ (p : Piece) (rest tail : List Char), (∀ c ∈ tail, isSeparator c = true) →
      p.text ++ rest ≠ tail := by
    rintro p rest tail htail rfl
    have hending := htail p.ending (by simp [Piece.text])
    rw [p.ending_other] at hending
    contradiction
  induction pieces generalizing pieces' with
  | nil =>
    cases pieces' with
    | nil => simpa using h
    | cons p' pieces' =>
      rw [List.flatMap_cons, List.append_assoc] at h
      exact absurd h.symm (hnone p' _ _ htail)
  | cons p pieces ih =>
    rw [List.flatMap_cons, List.append_assoc] at h
    cases pieces' with
    | nil => exact absurd h (hnone p _ _ htail')
    | cons p' pieces' =>
      simp only [List.flatMap_cons, Piece.text, List.append_assoc, List.singleton_append] at h
      obtain ⟨hrun, hending, hrest⟩ := run_eq_of_append_eq p.run_separators p'.run_separators
        p.ending_other p'.ending_other h
      obtain rfl : p = p' := Piece.ext hrun hending
      have heq := ih pieces' hrest
      simp only [Cut.mk.injEq] at heq ⊢
      exact ⟨by rw [heq.1], heq.2⟩

end Cut

section Joined

variable {cs rest run : List Char}

lemma not_isAlphanum_of_isSeparator {c : Char} (h : isSeparator c = true) :
    c.isAlphanum = false := by
  by_contra halnum
  rw [isSeparator_of_isAlphanum ((Bool.not_eq_false _).mp halnum)] at h
  contradiction

lemma isJoined_append (hcs : ∀ c ∈ cs, isSeparator c = false) (hrest : IsJoined rest) :
    IsJoined (cs ++ rest) := by
  induction cs with
  | nil => exact hrest
  | cons c cs ih =>
    obtain ⟨hc, hcs⟩ := List.forall_mem_cons.mp hcs
    refine (ih hcs).cons fun d _ hseparator => ?_
    rw [hc] at hseparator
    contradiction

/-- A run may stand before a text that it would not join. -/
lemma isJoined_run_append (hrun : ∀ c ∈ run, isSeparator c = true) (hrest : IsJoined rest)
    (h : run = [] ∨ ∀ d ∈ rest.head?, d.isAlphanum = false) : IsJoined (run ++ rest) := by
  induction run with
  | nil => exact hrest
  | cons c run ih =>
    obtain ⟨hc, hrun⟩ := List.forall_mem_cons.mp hrun
    have hnext := h.resolve_left (List.cons_ne_nil c run)
    refine (ih hrun (Or.inr hnext)).cons fun d hd _ => ?_
    cases run with
    | nil => exact hnext d hd
    | cons s run =>
      obtain rfl : s = d := Option.some.inj hd
      exact not_isAlphanum_of_isSeparator (hrun s List.mem_cons_self)

lemma isJoined_piece_append (p : Piece) (hrest : IsJoined rest) : IsJoined (p.camel ++ rest) := by
  unfold Piece.camel
  split_ifs with h
  · have hcapital := isSeparator_of_isAlphanum (upperChars_of_isAlphanum h.2).2
    exact isJoined_append (List.forall_mem_singleton.mpr hcapital) hrest
  · rw [Piece.text, List.append_assoc]
    have hending := isJoined_append (List.forall_mem_singleton.mpr p.ending_other) hrest
    apply isJoined_run_append p.run_separators hending
    by_cases hrun : p.run = []
    · exact Or.inl hrun
    · right
      simpa [hrun] using h

/-- A converted text has nothing left to convert. -/
theorem isJoined_camel (k : Cut) : IsJoined k.camel := by
  obtain ⟨pieces, tail, htail⟩ := k
  unfold Cut.camel
  induction pieces with
  | nil =>
    have h : IsJoined (tail ++ []) := isJoined_run_append htail List.isChain_nil (Or.inr (by simp))
    simpa using h
  | cons p pieces ih =>
    rw [List.flatMap_cons, List.append_assoc]
    exact isJoined_piece_append p ih

/-- And a text with nothing to convert stays as it is. -/
theorem camel_eq_text_of_isJoined {k : Cut} (h : IsJoined k.text) : k.camel = k.text := by
  have hpiece : ∀ p ∈ k.pieces, p.camel = p.text := by
    intro p hp
    have hinfix : p.text <:+: k.text :=
      (List.infix_of_mem_flatten (List.mem_map_of_mem hp)).trans
        (List.prefix_append _ k.tail).isInfix
    have hjoined : IsJoined (p.run ++ [p.ending]) := List.IsChain.infix h hinfix
    apply if_neg
    rintro ⟨hrun, halnum⟩
    have hlast := p.run_separators _ (List.getLast_mem hrun)
    have hother := hjoined.rel_getLast_head_of_append hrun (List.cons_ne_nil _ _) hlast
    rw [List.head_cons, halnum] at hother
    contradiction
  rw [Cut.camel, Cut.text, List.flatMap_congr hpiece]

lemma isJoined_camelCase (s : String) : IsJoined (camelCase s).toList := by
  obtain ⟨k, hk⟩ := Cut.exists_text_eq s.toList
  rw [camelCase, String.toList_ofList, ← hk, camelChars_text]
  exact isJoined_camel k

lemma camelCase_eq_self_iff (s : String) : camelCase s = s ↔ IsJoined s.toList := by
  constructor
  · intro h
    rw [← h]
    exact isJoined_camelCase s
  · intro h
    obtain ⟨k, hk⟩ := Cut.exists_text_eq s.toList
    rw [← String.toList_inj, camelCase, String.toList_ofList, ← hk, camelChars_text]
    rw [← hk] at h
    exact camel_eq_text_of_isJoined h

end Joined

section Uncapital

variable {cs : List Char}

lemma lowerChars_of_isSeparator {c : Char} (h : isSeparator c = true) : lowerChars c = [c] := by
  rw [isSeparator, Bool.or_eq_true, decide_eq_true_eq, decide_eq_true_eq] at h
  rcases h with rfl | rfl
  · rfl
  · rfl

lemma not_isSeparator_of_mem_lowerChars {c d : Char} (hc : isSeparator c = false)
    (h : d ∈ lowerChars c) : isSeparator d = false := by
  rcases mem_lowerChars h with rfl | hletter
  · exact hc
  · by_contra hd
    rw [Bool.not_eq_false, isSeparator, Bool.or_eq_true, decide_eq_true_eq, decide_eq_true_eq] at hd
    rcases hd with rfl | rfl
    · contradiction
    · contradiction

lemma isJoined_uncapitalChars (h : IsJoined cs) : IsJoined (uncapitalChars cs) := by
  cases cs with
  | nil => exact h
  | cons c cs =>
    rw [uncapitalChars]
    cases hc : isSeparator c with
    | true => rwa [lowerChars_of_isSeparator hc]
    | false =>
      exact isJoined_append (fun d hd => not_isSeparator_of_mem_lowerChars hc hd) h.tail

lemma isUncapital_uncapitalChars (cs : List Char) : IsUncapital (uncapitalChars cs) := by
  cases cs with
  | nil => simp [IsUncapital, uncapitalChars]
  | cons c cs =>
    obtain ⟨d, ds, hlower⟩ := List.exists_cons_of_ne_nil (lowerChars_ne_nil c)
    intro e he
    rw [uncapitalChars, hlower] at he
    obtain rfl : d = e := Option.some.inj he
    apply lowerChars_of_mem_lowerChars
    rw [hlower]
    exact List.mem_cons_self

lemma uncapitalChars_eq_self_iff (cs : List Char) : uncapitalChars cs = cs ↔ IsUncapital cs := by
  constructor
  · intro h
    rw [← h]
    exact isUncapital_uncapitalChars cs
  · intro h
    cases cs with
    | nil => rfl
    | cons c cs =>
      rw [uncapitalChars, h c rfl, List.singleton_append]

lemma toList_property_true (s : String) :
    (property true s).toList = uncapitalChars (camelCase s).toList := by
  simp [property, uncapitalize]

lemma isJoined_and_isUncapital_property (s : String) :
    IsJoined (property true s).toList ∧ IsUncapital (property true s).toList := by
  rw [toList_property_true]
  exact ⟨isJoined_uncapitalChars (isJoined_camelCase s), isUncapital_uncapitalChars _⟩

lemma property_eq_self_iff (s : String) :
    property true s = s ↔ IsJoined s.toList ∧ IsUncapital s.toList := by
  constructor
  · intro h
    rw [← h]
    exact isJoined_and_isUncapital_property s
  · rintro ⟨hjoined, huncapital⟩
    rw [← String.toList_inj, toList_property_true, (camelCase_eq_self_iff s).mpr hjoined]
    exact (uncapitalChars_eq_self_iff _).mpr huncapital

/-- Names that were converted are left as they are. Camel case leaves exactly those that no
separator before a letter or digit stands in, and the name of a property has its first character
in lower case besides. -/
theorem conversion_idempotent (s : String) :
    property true (property true s) = property true s ∧
    camelCase (camelCase s) = camelCase s ∧
    (property true s = s ↔ IsJoined s.toList ∧ IsUncapital s.toList) ∧
    (camelCase s = s ↔ IsJoined s.toList) := by
  refine ⟨?_, ?_, property_eq_self_iff s, camelCase_eq_self_iff s⟩
  · apply (property_eq_self_iff _).mpr
    exact isJoined_and_isUncapital_property s
  · apply (camelCase_eq_self_iff _).mpr
    exact isJoined_camelCase s

end Uncapital

section Folded

variable {cs ds run : List Char}

@[simp] lemma folded_append (cs ds : List Char) : folded (cs ++ ds) = folded cs ++ folded ds := by
  simp [folded]

lemma folded_of_separators (hrun : ∀ c ∈ run, isSeparator c = true) : folded run = [] := by
  have hnone : run.filter (fun c => !isSeparator c) = [] := by simpa using hrun
  rw [folded, hnone, List.flatMap_nil]

lemma folded_of_others (hcs : ∀ c ∈ cs, isSeparator c = false) :
    folded cs = cs.flatMap lowerChars := by
  have hall : cs.filter (fun c => !isSeparator c) = cs := by simpa using hcs
  rw [folded, hall]

lemma folded_piece (p : Piece) : folded p.camel = folded p.text := by
  have hending : folded [p.ending] = lowerChars p.ending := by
    rw [folded_of_others (List.forall_mem_singleton.mpr p.ending_other), List.flatMap_singleton]
  unfold Piece.camel
  split_ifs with h
  · obtain ⟨hupper, hcapital⟩ := upperChars_of_isAlphanum h.2
    have hother : ∀ c ∈ [p.ending.toUpper], isSeparator c = false :=
      List.forall_mem_singleton.mpr (isSeparator_of_isAlphanum hcapital)
    rw [folded_of_others hother, List.flatMap_singleton, lowerChars_toUpper, Piece.text,
      folded_append, folded_of_separators p.run_separators, hending, List.nil_append]
  · rfl

/-- Conversion keeps a text but for separators and case. -/
lemma folded_camel (k : Cut) : folded k.camel = folded k.text := by
  have hpieces : ∀ pieces : List Piece,
      folded (pieces.flatMap Piece.camel) = folded (pieces.flatMap Piece.text) := by
    intro pieces
    induction pieces with
    | nil => rfl
    | cons p pieces ih =>
      rw [List.flatMap_cons, List.flatMap_cons, folded_append, folded_append, folded_piece, ih]
  rw [Cut.camel, Cut.text, folded_append, folded_append, hpieces]

lemma folded_uncapitalChars (cs : List Char) : folded (uncapitalChars cs) = folded cs := by
  cases cs with
  | nil => rfl
  | cons c cs =>
    rw [uncapitalChars, folded_append, ← List.singleton_append (l := cs), folded_append]
    cases hc : isSeparator c with
    | true => rw [lowerChars_of_isSeparator hc]
    | false =>
      rw [folded_of_others fun d hd => not_isSeparator_of_mem_lowerChars hc hd, flatMap_lowerChars,
        folded_of_others (List.forall_mem_singleton.mpr hc), List.flatMap_singleton]

lemma folded_property (camel : Bool) (s : String) :
    folded (property camel s).toList = folded s.toList := by
  rw [toList_property, folded_uncapitalChars]
  cases camel with
  | false => rfl
  | true =>
    obtain ⟨k, hk⟩ := Cut.exists_text_eq s.toList
    rw [convertChars, if_pos rfl, ← hk, camelChars_text, folded_camel]

end Folded

/-- Every text is cut in exactly one way, and camel case converts each piece of it: a run of
separators goes where a letter or digit follows, which becomes a capital, and anything else stays
in its place. So no run is left that could go. A property name is the same text as its key but for
separators and case. -/
theorem camelCase_eq_camel :
    Function.Bijective Cut.text ∧
    (∀ k : Cut, camelCase (.ofList k.text) = .ofList k.camel) ∧
    (∀ s : String, IsJoined (camelCase s).toList) ∧
    ∀ (camel : Bool) (s : String), folded (property camel s).toList = folded s.toList := by
  refine ⟨⟨Cut.text_injective, Cut.exists_text_eq⟩, fun k => ?_, isJoined_camelCase,
    folded_property⟩
  rw [camelCase, String.toList_ofList, camelChars_text]

end SampleTypes.Name
