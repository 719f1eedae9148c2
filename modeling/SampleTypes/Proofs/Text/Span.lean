import Mathlib.Data.List.Infix
import Mathlib.Data.String.Basic
import SampleTypes.Text.Span

/-! Where a text is first found in another one. -/
namespace SampleTypes.Text

open String (utf8Len)

/-- Wherever `needle` stands in `text`, so many characters stand before it. -/
def OccursFrom (n : Nat) (needle text : List Char) : Prop :=
  ∀ before, before ++ needle <+: text → n ≤ before.length

/-- Behind `before`, and nowhere sooner, `needle` stands in `text`. -/
def IsFirst (before needle text : List Char) : Prop :=
  before ++ needle <+: text ∧ OccursFrom before.length needle text

/-- A place in a part of a text, which stands behind `before`. -/
def Span.IsWithin (s : Span) (before part : List Char) : Prop :=
  utf8Len before ≤ s.offset ∧ s.offset + s.length ≤ utf8Len before + utf8Len part

variable {a b before needle text above part below : List Char} {c : Char} {s : Span}

lemma isFirst_nil_iff : IsFirst before needle [] ↔ before = [] ∧ needle = [] := by
  constructor
  · rintro ⟨h, -⟩
    exact List.append_eq_nil_iff.mp (List.prefix_nil.mp h)
  · rintro ⟨rfl, rfl⟩
    exact ⟨List.prefix_rfl, fun _ _ => Nat.zero_le _⟩

lemma isFirst_iff_eq_nil (h : needle <+: text) : IsFirst before needle text ↔ before = [] := by
  constructor
  · rintro ⟨-, hfirst⟩
    exact List.length_eq_zero_iff.mp (Nat.le_zero.mp (hfirst [] h))
  · rintro rfl
    exact ⟨h, fun _ _ => Nat.zero_le _⟩

lemma isFirst_cons_iff (h : ¬ needle <+: c :: text) :
    IsFirst before needle (c :: text) ↔ ∃ rest, before = c :: rest ∧ IsFirst rest needle text := by
  constructor
  · rintro ⟨hbefore, hfirst⟩
    obtain - | ⟨d, rest⟩ := before
    · exact absurd hbefore h
    · obtain ⟨rfl, hrest⟩ := List.cons_prefix_cons.mp hbefore
      refine ⟨rest, rfl, hrest, fun before' hbefore' => ?_⟩
      simpa using hfirst (d :: before') (List.cons_prefix_cons.mpr ⟨rfl, hbefore'⟩)
  · rintro ⟨rest, rfl, hrest, hfirst⟩
    refine ⟨List.cons_prefix_cons.mpr ⟨rfl, hrest⟩, ?_⟩
    rintro (- | ⟨d, before'⟩) hbefore'
    · exact absurd hbefore' h
    · simpa using hfirst before' (List.cons_prefix_cons.mp hbefore').2

lemma offsetOf?_eq_some_iff {offset n : Nat} : offsetOf? needle offset text = some n ↔
    ∃ before, IsFirst before needle text ∧ n = offset + utf8Len before := by
  induction text generalizing offset with
  | nil =>
    simp only [offsetOf?, isFirst_nil_iff]
    cases needle <;> simp [eq_comm]
  | cons c text ih =>
    rw [offsetOf?]
    split_ifs with h
    · simp [isFirst_iff_eq_nil (List.isPrefixOf_iff_prefix.mp h), eq_comm]
    · simp only [ih, isFirst_cons_iff (fun hp => h (List.isPrefixOf_iff_prefix.mpr hp))]
      constructor
      · rintro ⟨rest, hrest, rfl⟩
        exact ⟨c :: rest, ⟨rest, rfl, hrest⟩, by rw [String.utf8Len_cons]; omega⟩
      · rintro ⟨_, ⟨rest, rfl, hrest⟩, rfl⟩
        exact ⟨rest, hrest, by rw [String.utf8Len_cons]; omega⟩

lemma infix_of_isFirst (h : IsFirst before needle text) : needle <:+: text :=
  (List.suffix_append before needle).isInfix.trans h.1.isInfix

/-- What occurs in a text has a first occurrence. -/
lemma exists_isFirst (h : needle <:+: text) : ∃ before, IsFirst before needle text := by
  induction text with
  | nil => exact ⟨[], isFirst_nil_iff.mpr ⟨rfl, List.infix_nil.mp h⟩⟩
  | cons c text ih =>
    by_cases hp : needle <+: c :: text
    · exact ⟨[], (isFirst_iff_eq_nil hp).mpr rfl⟩
    · obtain ⟨before, hbefore⟩ := ih ((List.infix_cons_iff.mp h).resolve_left hp)
      exact ⟨c :: before, (isFirst_cons_iff hp).mpr ⟨before, rfl, hbefore⟩⟩

/-- A text is shown where it first occurs. -/
lemma Span.find?_eq_some_iff {text needle : String} : Span.find? text needle = some s ↔
    ∃ before, IsFirst before needle.toList text.toList ∧
    s = ⟨utf8Len before, needle.utf8ByteSize⟩ := by
  rw [Span.find?, Option.map_eq_some_iff]
  constructor
  · rintro ⟨n, hn, rfl⟩
    obtain ⟨before, hbefore, rfl⟩ := offsetOf?_eq_some_iff.mp hn
    exact ⟨before, hbefore, by rw [Nat.zero_add]⟩
  · rintro ⟨before, hbefore, rfl⟩
    exact ⟨_, offsetOf?_eq_some_iff.mpr ⟨before, hbefore, (Nat.zero_add _).symm⟩, rfl⟩

/-- What holds of the first occurrence, if there is one, holds of the place that is shown, if one
is. -/
lemma forall_find?_iff {needle : String} {P : Span → Prop} {Q : Prop}
    (h : ∀ before, IsFirst before needle.toList text →
      (P ⟨utf8Len before, utf8Len needle.toList⟩ ↔ Q)) :
    (∀ s ∈ Span.find? (.ofList text) needle, P s) ↔ (needle.toList <:+: text → Q) := by
  constructor
  · intro hspan hneedle
    obtain ⟨before, hbefore⟩ := exists_isFirst hneedle
    refine (h before hbefore).mp (hspan _ (Span.find?_eq_some_iff.mpr ⟨before, ?_, ?_⟩))
    · rwa [String.toList_ofList]
    · rw [String.utf8Len_toList]
  · intro hQ s hs
    obtain ⟨before, hbefore, rfl⟩ := Span.find?_eq_some_iff.mp hs
    rw [String.toList_ofList] at hbefore
    rw [← String.utf8Len_toList]
    exact (h before hbefore).mpr (hQ (infix_of_isFirst hbefore))

lemma isPrefix_of_utf8Len_le (ha : a <+: text) (hb : b <+: text) (h : utf8Len a ≤ utf8Len b) :
    a <+: b := by
  rcases List.prefix_or_prefix_of_prefix ha hb with hab | ⟨rest, rfl⟩
  · exact hab
  · have hrest : utf8Len rest = 0 := by
      rw [String.utf8Len_append] at h
      omega
    rw [String.utf8Len_eq_zero.mp hrest, List.append_nil]

lemma eq_of_utf8Len_eq (ha : a <+: text) (hb : b <+: text) (h : utf8Len a = utf8Len b) : a = b := by
  obtain ⟨rest, rfl⟩ := isPrefix_of_utf8Len_le ha hb h.le
  have hrest : utf8Len rest = 0 := by
    rw [String.utf8Len_append] at h
    omega
  rw [String.utf8Len_eq_zero.mp hrest, List.append_nil]

section Part

variable (h : IsFirst before needle (above ++ part ++ below))

include h

lemma isPrefix_of_isFirst : before <+: above ++ part ++ below := (List.prefix_append ..).trans h.1

/-- What is found first is in a part of a text if it is there at all, and nowhere sooner. -/
theorem isWithin_iff : Span.IsWithin ⟨utf8Len before, utf8Len needle⟩ above part ↔
    needle <:+: part ∧ OccursFrom above.length needle (above ++ part ++ below) := by
  have hbefore := isPrefix_of_isFirst h
  have habove : above <+: above ++ part ++ below := by
    rw [List.append_assoc]
    exact List.prefix_append ..
  constructor
  · rintro ⟨hbegin, hend⟩
    obtain ⟨lead, rfl⟩ := isPrefix_of_utf8Len_le habove hbefore hbegin
    have hneedle : above ++ lead ++ needle <+: above ++ part := by
      refine isPrefix_of_utf8Len_le h.1 (List.prefix_append ..) ?_
      simpa only [String.utf8Len_append] using hend
    rw [List.append_assoc, List.prefix_append_right_inj] at hneedle
    refine ⟨(List.suffix_append lead needle).isInfix.trans hneedle.isInfix, fun before' h' => ?_⟩
    have hle := h.2 before' h'
    rw [List.length_append] at hle
    omega
  · rintro ⟨⟨lead, trail, rfl⟩, hfirst⟩
    obtain ⟨lead', rfl⟩ := List.prefix_of_prefix_length_le habove hbefore (hfirst before h.1)
    have hsooner : (above ++ lead').length ≤ (above ++ lead).length := by
      refine h.2 (above ++ lead) ⟨trail ++ below, ?_⟩
      simp only [List.append_assoc]
    have hpart : lead' <+: lead ++ (needle ++ (trail ++ below)) := by
      simpa only [List.append_assoc, List.prefix_append_right_inj] using hbefore
    have hlead : lead' <+: lead :=
      List.prefix_of_prefix_length_le hpart (List.prefix_append ..) (by simpa using hsooner)
    have hle := String.utf8Len_le_of_prefix hlead
    constructor <;> simp only [String.utf8Len_append] <;> omega

/-- What is found first is a part of a text if it is that part, and nowhere sooner. -/
theorem span_eq_iff : (⟨utf8Len before, utf8Len needle⟩ : Span) = ⟨utf8Len above, utf8Len part⟩ ↔
    part = needle ∧ OccursFrom above.length needle (above ++ part ++ below) := by
  have hbefore := isPrefix_of_isFirst h
  have hpart : above ++ part <+: above ++ part ++ below := List.prefix_append ..
  have habove : above <+: above ++ part ++ below := (List.prefix_append ..).trans hpart
  constructor
  · intro heq
    obtain ⟨hbegin, hlength⟩ := Span.mk.inj heq
    obtain rfl := eq_of_utf8Len_eq hbefore habove hbegin
    refine ⟨?_, h.2⟩
    exact (List.append_cancel_left (eq_of_utf8Len_eq h.1 hpart (by simp [hlength]))).symm
  · rintro ⟨rfl, hfirst⟩
    have hlength : before.length = above.length := (h.2 above hpart).antisymm (hfirst before h.1)
    rw [(List.prefix_of_prefix_length_le hbefore habove hlength.le).eq_of_length hlength]

end Part

end SampleTypes.Text
