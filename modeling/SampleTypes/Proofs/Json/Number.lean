import Mathlib.Data.List.TakeDrop
import SampleTypes.Json.Number

/-! Whole numbers of 64 bits read back from their decimal text. The text of a number has no end
mark, so reading is exact only before a character that cannot go on the number. Any number is
written in digits, signs, points and exponents. -/
namespace SampleTypes.Number

open Decimal

/-- A whole number that fits 64 bits, without a sign or as a negative one with a sign. -/
def IsWord : Number → Prop
  | .int n => -9223372036854775808 ≤ n ∧ n < 18446744073709551616
  | .float _ => False

instance : DecidablePred IsWord
  | .int n => inferInstanceAs (Decidable (-9223372036854775808 ≤ n ∧ n < 18446744073709551616))
  | .float _ => inferInstanceAs (Decidable False)

/-- A text that cannot go on a number: it is empty, or begins with no digit, point or exponent. -/
def Stops (rest : List Char) : Prop :=
  ∀ c ∈ rest.head?, c.isDigit = false ∧ c ≠ '.' ∧ c ≠ 'e' ∧ c ≠ 'E'

@[simp] lemma stops_nil : Stops [] := by simp [Stops]

@[simp] lemma stops_cons (c : Char) (rest : List Char) :
    Stops (c :: rest) ↔ c.isDigit = false ∧ c ≠ '.' ∧ c ≠ 'e' ∧ c ≠ 'E' := by simp [Stops]

lemma readDigits_append {digits rest : List Char} (hd : ∀ c ∈ digits, c.isDigit = true)
    (hne : digits ≠ []) (hr : Stops rest) : readDigits (digits ++ rest) = some (digits, rest) := by
  have hrest : rest.takeWhile Char.isDigit = [] ∧ rest.dropWhile Char.isDigit = rest := by
    cases rest with
    | nil => simp
    | cons c rest => simp [((stops_cons c rest).mp hr).1]
  simp [readDigits, List.span_eq_takeWhile_dropWhile, List.takeWhile_append_of_pos hd,
    List.dropWhile_append_of_pos hd, hrest, hne]

lemma readFraction_none {rest : List Char} (hr : Stops rest) :
    readFraction rest = some (none, rest) := by
  cases rest with
  | nil => rfl
  | cons c rest =>
    have hpoint := ((stops_cons c rest).mp hr).2.1
    rw [readFraction.eq_def]
    split <;> simp_all

lemma readExponent_none {rest : List Char} (hr : Stops rest) :
    readExponent rest = some (none, rest) := by
  cases rest with
  | nil => rfl
  | cons c rest => simp [readExponent, ((stops_cons c rest).mp hr).2.2]

/-- Only zero is written with a zero in front. -/
lemma head?_toDigits {n : Nat} (h : (Nat.toDigits 10 n).head? = some '0') : n = 0 := by
  induction n using Nat.strongRecOn with
  | ind n ih =>
    by_cases hn : n < 10
    · simpa [Nat.toDigits_of_lt_base hn] using h
    · rw [Nat.toDigits_of_base_le (by decide) (by omega),
        List.head?_append,
        Option.or_of_isSome (by simp [List.isSome_head?, Nat.toDigits_ne_nil])] at h
      have hsmall := ih (n / 10) (by omega) h
      omega

/-- Decimal digits, with a sign in front or none, are a whole number if it fits 64 bits. -/
lemma read_toDigits (negative : Bool) (n : Nat) {number : Number} {rest : List Char}
    (hn : ofDigits? negative (Nat.toDigits 10 n) = some number) (hr : Stops rest) :
    read ((if negative then ['-'] else []) ++ Nat.toDigits 10 n ++ rest) = some (number, rest) := by
  have hd : ∀ c ∈ Nat.toDigits 10 n, c.isDigit = true := fun c hc =>
    Nat.isDigit_of_mem_toDigits (by decide) (by decide) hc
  have hdigits := readDigits_append hd Nat.toDigits_ne_nil hr
  have hzero : ¬ ((Nat.toDigits 10 n).head? = some '0' ∧ (Nat.toDigits 10 n).length ≠ 1) := by
    rintro ⟨hhead, hlength⟩
    exact hlength (by rw [head?_toDigits hhead]; rfl)
  cases negative with
  | true =>
    simp only [if_true, List.cons_append, List.nil_append, read, hdigits, hzero, if_false,
      readFraction_none hr, readExponent_none hr, hn, Option.bind_eq_bind, Option.bind_some,
      Option.pure_def]
  | false =>
    have hsign : ∀ cs, Nat.toDigits 10 n ++ rest ≠ '-' :: cs := by
      intro cs h
      obtain ⟨d, ds, hds⟩ := List.exists_cons_of_ne_nil (Nat.toDigits_ne_nil (n := n) (b := 10))
      rw [hds, List.cons_append] at h
      have hdigit := hd d (by simp [hds])
      rw [(List.cons.inj h).1] at hdigit
      exact absurd hdigit (by decide)
    simp only [if_false, Bool.false_eq_true, List.nil_append, read, hdigits, hzero,
      readFraction_none hr, readExponent_none hr, hn, Option.bind_eq_bind, Option.bind_some,
      Option.pure_def]

/-- A whole number of 64 bits is read back from its text, before anything that cannot go on it. -/
theorem read_text {number : Number} (h : number.IsWord) {rest : List Char} (hr : Stops rest) :
    read (number.text.toList ++ rest) = some (number, rest) := by
  cases number with
  | float x => exact h.elim
  | int n =>
    obtain ⟨hlow, hhigh⟩ := h
    rw [text, Int.toString_eq_repr, Int.repr_eq_if]
    split_ifs with hn
    · rw [Nat.toList_repr]
      apply read_toDigits false
      · have hfits : FitsUnsigned n.toNat := by unfold FitsUnsigned; omega
        simp [ofDigits?, Nat.ofDigitChars_ten_toDigits, hfits, Int.toNat_of_nonneg hn]
      · exact hr
    · obtain ⟨m, rfl⟩ : ∃ m : Nat, n = -(m : Int) := ⟨(-n).toNat, by omega⟩
      rw [String.toList_append, Nat.toList_repr, Int.neg_neg, Int.toNat_natCast]
      apply read_toDigits true
      · have hfits : FitsSigned (-(m : Int)) := by constructor <;> omega
        have hpos : 0 < m := by omega
        simp [ofDigits?, Nat.ofDigitChars_ten_toDigits, hpos, hfits]
      · exact hr

/-- The characters that numbers are made of. -/
def IsMark (c : Char) : Prop := c.isDigit = true ∨ c ∈ ['-', '+', '.', 'e']

instance : DecidablePred IsMark := fun c =>
  inferInstanceAs (Decidable (c.isDigit = true ∨ c ∈ ['-', '+', '.', 'e']))

lemma isMark_toDigits (n : Nat) : ∀ c ∈ Nat.toDigits 10 n, IsMark c := fun _ hc =>
  Or.inl (Nat.isDigit_of_mem_toDigits (by decide) (by decide) hc)

lemma isMark_of_all {word : String} (h : (word.toList.all fun c => decide (IsMark c)) = true) :
    ∀ c ∈ word.toList, IsMark c := by
  simpa only [List.all_eq_true, decide_eq_true_eq] using h

lemma isMark_zeros (k : Nat) : ∀ c ∈ List.replicate k '0', IsMark c := by
  intro c hc
  rw [List.eq_of_mem_replicate hc]
  decide

lemma isMark_decimalText (d : Numeral) : ∀ c ∈ (decimalText d).toList, IsMark c := by
  have hdigits := isMark_toDigits d.digits
  have hpadded : ∀ k, ∀ c ∈ Nat.toDigits 10 d.digits ++ List.replicate k '0', IsMark c := fun k =>
    List.forall_mem_append.mpr ⟨hdigits, isMark_zeros k⟩
  unfold decimalText
  extract_lets digits place whole padded fraction rest
  have hfraction : ∀ c ∈ (if fraction.isEmpty then "0" else String.ofList fraction).toList,
      IsMark c := by
    split_ifs
    · exact isMark_of_all (by decide)
    · rw [String.toList_ofList]
      exact fun c hc => hpadded _ c (List.mem_of_mem_drop hc)
  have hrest : ∀ c ∈ (if rest.isEmpty then "" else "." ++ String.ofList rest).toList, IsMark c := by
    split_ifs
    · exact isMark_of_all (by decide)
    · simp only [String.toList_append, String.toList_ofList, List.forall_mem_append]
      exact ⟨isMark_of_all (by decide), fun c hc => hdigits c (List.mem_of_mem_drop hc)⟩
  have hsign : ∀ c ∈ (if 0 ≤ place then "+" else "-").toList, IsMark c := by
    split_ifs <;> exact isMark_of_all (by decide)
  by_cases hwhole : 0 ≤ place ∧ place ≤ 15
  · rw [if_pos hwhole]
    simp only [String.toList_append, String.toList_ofList, List.forall_mem_append]
    exact ⟨⟨fun c hc => hpadded _ c (List.mem_of_mem_take hc), isMark_of_all (by decide)⟩,
      hfraction⟩
  rw [if_neg hwhole]
  by_cases hsmall : -5 ≤ place ∧ place < 0
  · rw [if_pos hsmall]
    simp only [String.toList_append, String.toList_ofList, List.forall_mem_append]
    exact ⟨isMark_of_all (by decide), isMark_zeros _, hdigits⟩
  · rw [if_neg hsmall, Nat.toString_eq_repr]
    simp only [String.toList_append, String.toList_ofList, List.forall_mem_append, Nat.toList_repr]
    exact ⟨⟨⟨⟨fun c hc => hdigits c (List.mem_of_mem_take hc), hrest⟩, isMark_of_all (by decide)⟩,
      hsign⟩, isMark_toDigits _⟩

/-- Numbers are written in digits, signs, points and exponents. -/
theorem isMark_text (n : Number) : ∀ c ∈ n.text.toList, IsMark c := by
  cases n with
  | int n =>
    rw [text, Int.toString_eq_repr, Int.repr_eq_if]
    split_ifs
    · rw [Nat.toList_repr]
      exact isMark_toDigits _
    · rw [String.toList_append, Nat.toList_repr]
      exact List.forall_mem_append.mpr ⟨isMark_of_all (by decide), isMark_toDigits _⟩
  | float x =>
    rw [text, floatText, String.toList_append, List.forall_mem_append]
    constructor
    · split_ifs <;> exact isMark_of_all (by decide)
    · split_ifs
      · exact isMark_of_all (by decide)
      · exact isMark_decimalText _

end SampleTypes.Number
