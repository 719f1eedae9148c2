import Mathlib.Data.List.Basic
import Mathlib.Tactic.Common
import SampleTypes.Text.Case

/-! Which characters can be the other case of one: itself, or some character from the letters on.
So no conversion of case makes a separator, a quote or a line break out of anything else. And what
is in lower case stays as it is when it is lowered again. -/
namespace SampleTypes.Text

/-- A number from `b` on that is the number of a character. -/
def IsImage (b n : Nat) : Prop := b ≤ n ∧ n.isValidChar

/-- Every image in a run is that of a character from `b` on. -/
def runIsAbove (b : Nat) (run : Nat × Nat × Nat × Nat) : Bool :=
  let last := run.2.2.2 + (run.2.1 - run.1)
  b ≤ run.2.2.2 && (last < 0xD800 || (0xE000 ≤ run.2.2.2 && last < 0x110000))

def sequenceIsAbove (b : Nat) (entry : Nat × List Nat) : Bool :=
  !entry.2.isEmpty && entry.2.all fun n => b ≤ n && (n < 0xD800 || (0xE000 ≤ n && n < 0x110000))

lemma upper_isAbove :
    upperRuns.all (runIsAbove 0x41) = true ∧
      upperSequences.all (sequenceIsAbove 0x41) = true := by
  decide +kernel

lemma lower_isAbove :
    lowerRuns.all (runIsAbove 0x61) = true ∧
      lowerSequences.all (sequenceIsAbove 0x61) = true := by
  decide +kernel

lemma toNat_ofNat {b n : Nat} (h : IsImage b n) : b ≤ (Char.ofNat n).toNat := by
  have hn : (Char.ofNat n).toNat = n := by
    rw [Char.ofNat, dif_pos h.2]
    rfl
  rw [hn]
  exact h.1

lemma isImage_imageIn {b : Nat} {runs : List (Nat × Nat × Nat × Nat)} {n m : Nat}
    (hruns : runs.all (runIsAbove b) = true) (h : imageIn runs n = some m) : IsImage b m := by
  obtain ⟨⟨first, last, step, image⟩, hmem, hrun⟩ := List.exists_of_findSome?_eq_some h
  have habove := List.all_eq_true.mp hruns _ hmem
  simp only [runIsAbove, Bool.and_eq_true, Bool.or_eq_true, decide_eq_true_eq] at habove
  simp only [Option.ite_none_right_eq_some, Option.some.injEq] at hrun
  obtain ⟨hn, rfl⟩ := hrun
  refine ⟨by omega, ?_⟩
  unfold Nat.isValidChar
  omega

lemma lookup_isAbove {b : Nat} {sequences : List (Nat × List Nat)} {n : Nat} {ns : List Nat}
    (hsequences : sequences.all (sequenceIsAbove b) = true) (h : sequences.lookup n = some ns) :
    ns ≠ [] ∧ ∀ m ∈ ns, IsImage b m := by
  obtain ⟨l₁, l₂, rfl, -⟩ := List.lookup_eq_some_iff.mp h
  have habove := List.all_eq_true.mp hsequences (n, ns) (by simp)
  simp only [sequenceIsAbove, Bool.and_eq_true, Bool.not_eq_true', List.isEmpty_eq_false_iff,
    List.all_eq_true, Bool.or_eq_true, decide_eq_true_eq] at habove
  refine ⟨habove.1, fun m hm => ⟨(habove.2 m hm).1, ?_⟩⟩
  have hrange := (habove.2 m hm).2
  unfold Nat.isValidChar
  omega

/-- The other case of a character: by its sequence, by its image in a run, or the character
itself. -/
lemma recase_cases (sequences : List (Nat × List Nat)) (runs : List (Nat × Nat × Nat × Nat))
    (c : Char) :
    (∃ ns, sequences.lookup c.toNat = some ns ∧ recase sequences runs c = ns.map Char.ofNat) ∨
    (∃ n, imageIn runs c.toNat = some n ∧ recase sequences runs c = [Char.ofNat n]) ∨
    recase sequences runs c = [c] := by
  unfold recase
  cases sequences.lookup c.toNat with
  | some ns => exact Or.inl ⟨ns, rfl, rfl⟩
  | none =>
    right
    cases himage : imageIn runs c.toNat with
    | some n => exact Or.inl ⟨n, rfl, rfl⟩
    | none => exact Or.inr rfl

/-- What stands for a character in the other case is the character itself or an image. -/
lemma mem_recase {b : Nat} {sequences : List (Nat × List Nat)}
    {runs : List (Nat × Nat × Nat × Nat)} (hruns : runs.all (runIsAbove b) = true)
    (hsequences : sequences.all (sequenceIsAbove b) = true) {c d : Char}
    (h : d ∈ recase sequences runs c) : d = c ∨ b ≤ d.toNat := by
  rcases recase_cases sequences runs c with ⟨ns, hlookup, heq⟩ | ⟨n, himage, heq⟩ | heq
  · rw [heq] at h
    obtain ⟨n, hn, rfl⟩ := List.mem_map.mp h
    exact Or.inr (toNat_ofNat ((lookup_isAbove hsequences hlookup).2 n hn))
  · rw [heq, List.mem_singleton] at h
    rw [h]
    exact Or.inr (toNat_ofNat (isImage_imageIn hruns himage))
  · rw [heq, List.mem_singleton] at h
    exact Or.inl h

/-- What holds of 128 characters one by one holds of each of them. -/
lemma forall_ascii {p : Char → Prop} (h : ∀ n : Fin 128, p (Char.ofNat n)) {c : Char}
    (hc : c.toNat < 0x80) : p c := by
  have hp := h ⟨c.toNat, hc⟩
  rwa [Char.ofNat_toNat] at hp

section Letters

/-! ASCII letters. The other case of one is a letter of that case, and leads back to it. -/

variable {c : Char}

lemma toNat_lt_of_isAlphanum (h : c.isAlphanum = true) : c.toNat < 0x80 := by
  have hbelow : ∀ last : UInt32, last.toNat < 0x80 → c.val ≤ last → c.toNat < 0x80 :=
    fun last hlast hc => Nat.lt_of_le_of_lt (UInt32.le_iff_toNat_le.mp hc) hlast
  rcases Bool.or_eq_true_iff.mp h with halpha | hdigit
  · rcases Bool.or_eq_true_iff.mp halpha with hupper | hlower
    · have hrange : c.val ≥ 'A'.val ∧ c.val ≤ 'Z'.val := of_decide_eq_true hupper
      exact hbelow 'Z'.val (by decide) hrange.2
    · exact hbelow 'z'.val (by decide) (of_decide_eq_true (Bool.and_eq_true_iff.mp hlower).2)
  · exact hbelow '9'.val (by decide) (of_decide_eq_true (Bool.and_eq_true_iff.mp hdigit).2)

lemma isAlphanum_of_isLower (h : c.isLower = true) : c.isAlphanum = true := by
  have halpha : c.isAlpha = true := Bool.or_eq_true_iff.mpr (Or.inr h)
  exact Bool.or_eq_true_iff.mpr (Or.inl halpha)

lemma isAlphanum_of_isUpper (h : c.isUpper = true) : c.isAlphanum = true := by
  have halpha : c.isAlpha = true := Bool.or_eq_true_iff.mpr (Or.inl h)
  exact Bool.or_eq_true_iff.mpr (Or.inl halpha)

/-- A small letter is no capital, and its capital is one, is no small letter and leads back to it. -/
lemma capital_of_isLower (h : c.isLower = true) : c.isUpper = false ∧
    c.toUpper.isUpper = true ∧ c.toUpper.isLower = false ∧ c.toUpper.toLower = c := by
  refine @forall_ascii (fun c => c.isLower = true → c.isUpper = false ∧
    c.toUpper.isUpper = true ∧ c.toUpper.isLower = false ∧ c.toUpper.toLower = c)
    (by decide +kernel) _ ?_ h
  exact toNat_lt_of_isAlphanum (isAlphanum_of_isLower h)

lemma small_of_isUpper (h : c.isUpper = true) :
    c.toLower.isLower = true ∧ c.toLower.toUpper = c := by
  refine @forall_ascii (fun c => c.isUpper = true →
    c.toLower.isLower = true ∧ c.toLower.toUpper = c) (by decide +kernel) _ ?_ h
  exact toNat_lt_of_isAlphanum (isAlphanum_of_isUpper h)

lemma toUpper_eq_self_iff : c.toUpper = c ↔ c.isLower = false := by
  constructor
  · intro heq
    by_contra h
    rw [Bool.not_eq_false] at h
    obtain ⟨-, -, hcapital, -⟩ := capital_of_isLower h
    rw [heq, h] at hcapital
    contradiction
  · intro h
    delta Char.toUpper
    rw [dif_neg]
    rintro ⟨hlow, hhigh⟩
    have hsmall : c.isLower = true :=
      Bool.and_eq_true_iff.mpr ⟨decide_eq_true hlow, decide_eq_true hhigh⟩
    rw [h] at hsmall
    contradiction

lemma toLower_eq_self_iff : c.toLower = c ↔ c.isUpper = false := by
  constructor
  · intro heq
    by_contra h
    rw [Bool.not_eq_false] at h
    obtain ⟨hsmall, -⟩ := small_of_isUpper h
    rw [heq] at hsmall
    rw [(capital_of_isLower hsmall).1] at h
    contradiction
  · intro h
    delta Char.toLower
    rw [dif_neg]
    intro hrange
    have hcapital : c.isUpper = true := decide_eq_true hrange
    rw [h] at hcapital
    contradiction

lemma isLower_toUpper (c : Char) : c.toUpper.isLower = false := by
  cases h : c.isLower with
  | true => exact (capital_of_isLower h).2.2.1
  | false => rw [toUpper_eq_self_iff.mpr h, h]

lemma toLower_of_isLower (h : c.isLower = true) : c.toLower = c :=
  toLower_eq_self_iff.mpr (capital_of_isLower h).1

lemma toLower_toUpper (h : c.isLower = true) : c.toUpper.toLower = c :=
  (capital_of_isLower h).2.2.2

lemma toUpper_toLower (h : c.isUpper = true) : c.toLower.toUpper = c := (small_of_isUpper h).2

/-- A character is told from its capital but for its own case. -/
lemma eq_toUpper_or (c : Char) : c = c.toUpper ∨ c = c.toUpper.toLower := by
  cases h : c.isLower with
  | true => exact Or.inr (toLower_toUpper h).symm
  | false => exact Or.inl (toUpper_eq_self_iff.mpr h).symm

lemma eq_toLower_or (c : Char) : c = c.toLower ∨ c = c.toLower.toUpper := by
  cases h : c.isUpper with
  | true => exact Or.inr (toUpper_toLower h).symm
  | false => exact Or.inl (toLower_eq_self_iff.mpr h).symm

end Letters

lemma toNat_toLower (c : Char) :
    c.toLower.toNat = if 65 ≤ c.toNat ∧ c.toNat ≤ 90 then c.toNat + 32 else c.toNat := by
  have hcapital :
      (c.val ≥ 'A'.val ∧ c.val ≤ 'Z'.val) ↔ 65 ≤ c.toNat ∧ c.toNat ≤ 90 := by
    rw [ge_iff_le, UInt32.le_iff_toNat_le, UInt32.le_iff_toNat_le]
    rfl
  delta Char.toLower
  by_cases h : c.val ≥ 'A'.val ∧ c.val ≤ 'Z'.val
  · have hrange := hcapital.mp h
    rw [dif_pos h, if_pos hrange]
    have hshift : ('a'.val - 'A'.val).toNat = 32 := by decide
    change (c.val + ('a'.val - 'A'.val)).toNat = c.val.toNat + 32
    change 65 ≤ c.val.toNat ∧ c.val.toNat ≤ 90 at hrange
    rw [UInt32.toNat_add, hshift]
    omega
  · rw [dif_neg h, if_neg (fun hrange => h (hcapital.mpr hrange))]

/-- Lower case does not depend on the case of a letter that has one of 128 characters for
its own. -/
lemma lowerChars_toLower (c : Char) : lowerChars c.toLower = lowerChars c := by
  cases h : c.isUpper with
  | true =>
    obtain ⟨hsmall, -⟩ := small_of_isUpper h
    have hascii := toNat_lt_of_isAlphanum (isAlphanum_of_isUpper h)
    have hlower := toNat_lt_of_isAlphanum (isAlphanum_of_isLower hsmall)
    rw [lowerChars_ascii hlower, lowerChars_ascii hascii, toLower_of_isLower hsmall]
  | false => rw [toLower_eq_self_iff.mpr h]

lemma lowerChars_toUpper (c : Char) : lowerChars c.toUpper = lowerChars c := by
  rcases eq_toUpper_or c with hself | hback
  · rw [← hself]
  · calc lowerChars c.toUpper
      _ = lowerChars c.toUpper.toLower := (lowerChars_toLower _).symm
      _ = lowerChars c := by rw [← hback]

/-- The lower case of a character is the character, or begins at the small letters. -/
theorem mem_lowerChars {c d : Char} (h : d ∈ lowerChars c) : d = c ∨ 0x61 ≤ d.toNat := by
  rw [lowerChars] at h
  split_ifs at h with hascii
  · rw [List.mem_singleton] at h
    subst h
    by_cases hupper : 65 ≤ c.toNat ∧ c.toNat ≤ 90
    · right
      rw [toNat_toLower, if_pos hupper]
      omega
    · left
      apply Char.toNat_inj.mp
      rw [toNat_toLower, if_neg hupper]
  · exact mem_recase lower_isAbove.1 lower_isAbove.2 h

/-- A character before the small letters is the lower case of none but itself. -/
lemma eq_of_mem_lowerChars {c d : Char} (h : d ∈ lowerChars c) (hd : d.toNat < 0x61) : d = c :=
  (mem_lowerChars h).resolve_right (Nat.not_le.mpr hd)

/-- And an ASCII capital is in no lower case at all. -/
lemma not_isUpper_of_mem_lowerChars {c d : Char} (h : d ∈ lowerChars c) : d.isUpper = false := by
  by_contra hupper
  rw [Bool.not_eq_false] at hupper
  have hbounds : d.val ≥ 'A'.val ∧ d.val ≤ 'Z'.val := of_decide_eq_true hupper
  have hhigh : d.toNat ≤ 0x5A := UInt32.le_iff_toNat_le.mp hbounds.2
  obtain rfl : d = c := eq_of_mem_lowerChars h (by omega)
  rw [lowerChars_ascii (by omega), List.mem_singleton] at h
  rw [toLower_eq_self_iff.mp h.symm] at hupper
  contradiction

lemma lowerChars_ne_nil (c : Char) : lowerChars c ≠ [] := by
  unfold lowerChars
  split_ifs
  · simp
  · rcases recase_cases lowerSequences lowerRuns c with ⟨ns, hlookup, heq⟩ | ⟨n, -, heq⟩ | heq
    · simpa [heq] using (lookup_isAbove lower_isAbove.2 hlookup).1
    · simp [heq]
    · simp [heq]

/-- Whether a run leads from other characters than ASCII to other letters, but for one single
letter. -/
def runLeavesAscii (run : Nat × Nat × Nat × Nat) : Bool :=
  run.2.1 < 0x80 || 0x80 ≤ run.2.2.2 || (run.1 = run.2.1 && run.2.2.2 = 0x6B)

lemma lower_leavesAscii : lowerRuns.all runLeavesAscii = true ∧
    lowerSequences.all (fun entry => 0x80 ≤ entry.2.headD 0 || entry.2.headD 0 = 0x69) = true := by
  decide +kernel

/-- Of the ASCII letters only two are, or begin, the lower case of another character than ASCII: the
letter of the Kelvin sign, and the one that loses its dot. -/
theorem exists_lowerChars_eq_cons {c : Char} (hc : 0x80 ≤ c.toNat) :
    ∃ d ds, lowerChars c = d :: ds ∧ (0x80 ≤ d.toNat ∨ d = 'i' ∨ d = 'k') := by
  obtain ⟨hruns, hsequences⟩ := lower_leavesAscii
  rw [lowerChars, if_neg (Nat.not_lt.mpr hc)]
  rcases recase_cases lowerSequences lowerRuns c with ⟨ns, hlookup, heq⟩ | ⟨n, himage, heq⟩ | heq
  · obtain ⟨hne, himages⟩ := lookup_isAbove lower_isAbove.2 hlookup
    obtain ⟨l₁, l₂, hentries, -⟩ := List.lookup_eq_some_iff.mp hlookup
    have hfirst := List.all_eq_true.mp hsequences (c.toNat, ns) (by simp [hentries])
    obtain ⟨n, ns, rfl⟩ := List.exists_cons_of_ne_nil hne
    refine ⟨Char.ofNat n, ns.map Char.ofNat, heq, ?_⟩
    rcases Bool.or_eq_true_iff.mp hfirst with hfirst | hfirst
    · exact Or.inl (toNat_ofNat ⟨of_decide_eq_true hfirst, (himages n List.mem_cons_self).2⟩)
    · obtain rfl : n = 0x69 := of_decide_eq_true hfirst
      exact Or.inr (Or.inl rfl)
  · refine ⟨Char.ofNat n, [], heq, ?_⟩
    have hvalid := (isImage_imageIn lower_isAbove.1 himage).2
    obtain ⟨⟨first, last, step, image⟩, hmem, hrun⟩ := List.exists_of_findSome?_eq_some himage
    have hleaves := List.all_eq_true.mp hruns _ hmem
    simp only [runLeavesAscii, Bool.or_eq_true, Bool.and_eq_true, decide_eq_true_eq] at hleaves
    simp only [Option.ite_none_right_eq_some, Option.some.injEq] at hrun
    obtain ⟨hrange, rfl⟩ := hrun
    by_cases hhigh : 0x80 ≤ image
    · exact Or.inl (toNat_ofNat ⟨by omega, hvalid⟩)
    · have hkelvin : image + (c.toNat - first) = 0x6B := by omega
      rw [hkelvin]
      exact Or.inr (Or.inr rfl)
  · exact ⟨c, [], heq, Or.inl hc⟩

/-- Whether no image in one run stands in another: they lie apart, or one between the steps of the
other. -/
def runMisses (run other : Nat × Nat × Nat × Nat) : Bool :=
  Nat.blt (run.2.2.2 + (run.2.1 - run.1)) other.1 || Nat.blt other.2.1 run.2.2.2 ||
    ((run.2.2.1 == 2 || run.1 == run.2.1) && other.2.2.1 == 2 && (run.2.2.2 + other.1) % 2 == 1)

lemma lower_misses : lowerRuns.all (fun run => lowerRuns.all (runMisses run) &&
      lowerSequences.all fun entry => runMisses run (entry.1, entry.1, 1, 0)) = true ∧
    lowerSequences.all (fun entry => entry.2.all fun n =>
      (lowerSequences.lookup n).isNone && (imageIn lowerRuns n).isNone) = true := by
  decide +kernel

/-- A number that the tables of the lower case do not hold. -/
def IsLowered (n : Nat) : Prop := lowerSequences.lookup n = none ∧ imageIn lowerRuns n = none

lemma isLowered_of_lookup {n m : Nat} {ns : List Nat} (h : lowerSequences.lookup n = some ns)
    (hm : m ∈ ns) : IsLowered m := by
  obtain ⟨l₁, l₂, heq, -⟩ := List.lookup_eq_some_iff.mp h
  have hall := List.all_eq_true.mp lower_misses.2 (n, ns) (by simp [heq])
  have hnone := List.all_eq_true.mp hall m hm
  simpa [IsLowered] using hnone

lemma isLowered_of_imageIn {n m : Nat} (h : imageIn lowerRuns n = some m) : IsLowered m := by
  obtain ⟨⟨first, last, step, image⟩, hmem, hrun⟩ := List.exists_of_findSome?_eq_some h
  simp only [Option.ite_none_right_eq_some, Option.some.injEq] at hrun
  obtain ⟨hn, rfl⟩ := hrun
  have hmisses := List.all_eq_true.mp lower_misses.1 _ hmem
  simp only [Bool.and_eq_true, List.all_eq_true, runMisses, Bool.or_eq_true, Nat.blt_eq,
    beq_iff_eq] at hmisses
  constructor
  · rw [List.lookup_eq_none_iff]
    intro entry hentry
    have hapart := hmisses.2 entry hentry
    rw [bne_iff_ne]
    omega
  · unfold imageIn
    rw [List.findSome?_eq_none_iff]
    rintro ⟨first', last', step', image'⟩ hmem'
    have hapart := hmisses.1 _ hmem'
    dsimp only at hapart
    simp only [ite_eq_right_iff]
    rintro ⟨hlow, hhigh, hstep'⟩
    -- Only a run of every second character could hold the image, and there it has the other parity.
    obtain (hbelow | habove) | ⟨⟨hstep | hsingle, rfl⟩, hodd⟩ := hapart
    · omega
    · omega
    · subst hstep
      omega
    · omega

lemma recase_of_isLowered {n : Nat} (hvalid : n.isValidChar) (h : IsLowered n) :
    recase lowerSequences lowerRuns (Char.ofNat n) = [Char.ofNat n] := by
  have hn : (Char.ofNat n).toNat = n := by
    rw [Char.ofNat, dif_pos hvalid]
    rfl
  simp [recase, hn, h.1, h.2]

/-- Lower case is its own lower case. -/
theorem lowerChars_of_mem_lowerChars {c d : Char} (h : d ∈ lowerChars c) :
    lowerChars d = [d] := by
  by_cases hc : c.toNat < 0x80
  · rw [lowerChars_ascii hc, List.mem_singleton] at h
    rw [h, lowerChars_toLower, lowerChars_ascii hc]
  by_cases hd : d.toNat < 0x80
  · have hletter : 0x61 ≤ d.toNat := (mem_lowerChars h).resolve_left (by rintro rfl; omega)
    have hself : d.toLower = d := by
      apply Char.toNat_inj.mp
      rw [toNat_toLower, if_neg (by omega)]
    rw [lowerChars_ascii hd, hself]
  rw [lowerChars, if_neg hc] at h
  rw [lowerChars, if_neg hd]
  rcases recase_cases lowerSequences lowerRuns c with ⟨ns, hlookup, heq⟩ | ⟨n, himage, heq⟩ | heq
  · rw [heq] at h
    obtain ⟨n, hn, rfl⟩ := List.mem_map.mp h
    have hvalid := ((lookup_isAbove lower_isAbove.2 hlookup).2 n hn).2
    exact recase_of_isLowered hvalid (isLowered_of_lookup hlookup hn)
  · rw [heq, List.mem_singleton] at h
    rw [h]
    have hvalid := (isImage_imageIn lower_isAbove.1 himage).2
    exact recase_of_isLowered hvalid (isLowered_of_imageIn himage)
  · rw [heq, List.mem_singleton] at h
    rwa [h]

lemma flatMap_lowerChars (c : Char) : (lowerChars c).flatMap lowerChars = lowerChars c := by
  calc (lowerChars c).flatMap lowerChars
    _ = (lowerChars c).flatMap fun d => [d] :=
      List.flatMap_congr fun d hd => lowerChars_of_mem_lowerChars hd
    _ = lowerChars c := List.flatMap_singleton' _

/-- The upper case of a character is the character, or begins at the capitals. -/
theorem mem_upperChars {c d : Char} (h : d ∈ upperChars c) : d = c ∨ 0x41 ≤ d.toNat := by
  rw [upperChars] at h
  split_ifs at h with hascii
  · rw [List.mem_singleton] at h
    subst h
    unfold Char.toUpper
    split
    · next hlower =>
      right
      have hlow : 97 ≤ c.val.toNat := UInt32.le_iff_toNat_le.mp hlower.1
      have hhigh : c.val.toNat ≤ 122 := UInt32.le_iff_toNat_le.mp hlower.2
      have hshift : ('A'.val - 'a'.val).toNat = 2 ^ 32 - 32 := by decide
      rw [Char.toNat, UInt32.toNat_add, hshift]
      omega
    · exact Or.inl rfl
  · exact mem_recase upper_isAbove.1 upper_isAbove.2 h

end SampleTypes.Text
