import Mathlib.Data.List.Nodup
import SampleTypes.Json.Quoted

/-! String literals read back. What stands between the quotes is free of raw control characters,
and reading stops exactly at the closing quote, whatever follows it. -/
namespace SampleTypes.Json

lemma hexValue?_digitChar : ∀ n : Nat, n < 16 → hexValue? n.digitChar = some n := by decide

/-- The escape of a control character names its code. -/
lemma hex4?_control {n : Nat} (h : n < 0x20) :
    hex4? '0' '0' (n / 16).digitChar (n % 16).digitChar = some n := by
  have h0 : hexValue? '0' = some 0 := by decide
  have h1 := hexValue?_digitChar (n / 16) (by omega)
  have h2 := hexValue?_digitChar (n % 16) (by omega)
  simp only [hex4?, h0, h1, h2, Option.bind_eq_bind, Option.bind_some, Option.pure_def]
  congr 1
  omega

/-- The ways in which a character is written: a letter behind a backslash, its code, or itself. -/
inductive Written (c : Char) : List Char → Prop
  | short (e : Char) (hread : shortEscape? e = some c) (he : 0x20 ≤ e.toNat) : Written c ['\\', e]
  | code (hc : c.toNat < 0x20) : Written c
      ['\\', 'u', '0', '0', (c.toNat / 16).digitChar, (c.toNat % 16).digitChar]
  | plain (hquote : c ≠ '"') (hbackslash : c ≠ '\\') (hc : 0x20 ≤ c.toNat) : Written c [c]

lemma written_escapeChar (c : Char) : Written c (escapeChar c) := by
  unfold escapeChar
  split
  · next h => exact .short '"' (by rw [h]; decide) (by decide)
  split
  · next h => exact .short '\\' (by rw [h]; decide) (by decide)
  split
  · next h => exact .short 'b' (by rw [h]; decide) (by decide)
  split
  · next h => exact .short 'f' (by rw [h]; decide) (by decide)
  split
  · next h => exact .short 'n' (by rw [h]; decide) (by decide)
  split
  · next h => exact .short 'r' (by rw [h]; decide) (by decide)
  split
  · next h => exact .short 't' (by rw [h]; decide) (by decide)
  split
  · next h => exact .code h
  · next hquote hbackslash _ _ _ _ _ h => exact .plain hquote hbackslash (by omega)

lemma escapeChar_eq_self {c : Char} (hquote : c ≠ '"') (hbackslash : c ≠ '\\')
    (hc : 0x20 ≤ c.toNat) : escapeChar c = [c] := by
  have hne : ∀ d : Char, d.toNat < 0x20 → c ≠ d := by
    rintro d hd rfl
    omega
  rw [escapeChar, if_neg hquote, if_neg hbackslash, if_neg (hne _ (by decide)),
    if_neg (hne _ (by decide)), if_neg (hne _ (by decide)), if_neg (hne _ (by decide)),
    if_neg (hne _ (by decide)), if_neg (by omega)]

/-- What is read behind a backslash, other than a code. -/
lemma readQuoted_short {c e : Char} (hread : shortEscape? e = some c) (cs : List Char) :
    readQuoted ('\\' :: e :: cs) = (readQuoted cs).map fun (s, r) => (c :: s, r) := by
  rw [readQuoted.eq_def]
  split
  · contradiction
  · next heq => exact absurd (List.cons.inj heq).1 (by decide)
  · next heq =>
    obtain ⟨rfl, -⟩ := List.cons.inj (List.cons.inj heq).2
    contradiction
  · next heq =>
    obtain ⟨rfl, rfl⟩ := List.cons.inj (List.cons.inj heq).2
    simp only [hread]
  · next h heq =>
    obtain ⟨rfl, rfl⟩ := List.cons.inj heq
    exact absurd rfl (h e cs rfl)

/-- A character that needs no escape is read as itself. -/
lemma readQuoted_plain {c : Char} (hquote : c ≠ '"') (hbackslash : c ≠ '\\') (hc : 0x20 ≤ c.toNat)
    (cs : List Char) : readQuoted (c :: cs) = (readQuoted cs).map fun (s, r) => (c :: s, r) := by
  have hraw : ¬ (c = '\\' ∨ c.toNat < 0x20) := by simp only [hbackslash, false_or]; omega
  rw [readQuoted.eq_def]
  split
  · contradiction
  · next heq => exact absurd (List.cons.inj heq).1 hquote
  · next heq => exact absurd (List.cons.inj heq).1 hbackslash
  · next heq => exact absurd (List.cons.inj heq).1 hbackslash
  · next heq =>
    obtain ⟨rfl, rfl⟩ := List.cons.inj heq
    rw [if_neg hraw]

/-- One written character is read as itself, with the rest of the literal after it. -/
lemma readQuoted_escapeChar (c : Char) (cs : List Char) :
    readQuoted (escapeChar c ++ cs) = (readQuoted cs).map fun (s, r) => (c :: s, r) := by
  have h := written_escapeChar c
  generalize escapeChar c = written at h ⊢
  cases h with
  | short e hread _ => exact readQuoted_short hread cs
  | code hc =>
    have hhigh : ¬ (0xD800 ≤ c.toNat ∧ c.toNat < 0xDC00) := by omega
    have hlow : ¬ (0xDC00 ≤ c.toNat ∧ c.toNat < 0xE000) := by omega
    simp only [List.cons_append, List.nil_append, readQuoted, hex4?_control hc, hhigh,
      hlow, if_false, Char.ofNat_toNat]
  | plain hquote hbackslash hc => exact readQuoted_plain hquote hbackslash hc cs

/-- Reading from after the opening quote ends right behind the closing one. -/
theorem readQuoted_escaped (s rest : List Char) :
    readQuoted (s.flatMap escapeChar ++ '"' :: rest) = some (s, rest) := by
  induction s with
  | nil => simp [readQuoted]
  | cons c s ih =>
    rw [List.flatMap_cons, List.append_assoc, readQuoted_escapeChar, ih]
    rfl

theorem toList_quoted (s : String) :
    (quoted s).toList = '"' :: (s.toList.flatMap escapeChar ++ ['"']) := by
  simp [quoted, String.toList_append]

/-- No written character is a control character. -/
lemma escapeChar_printable (c : Char) : ∀ d ∈ escapeChar c, 0x20 ≤ d.toNat := by
  have hdigit : ∀ n : Nat, n < 16 → 0x20 ≤ n.digitChar.toNat := by decide
  have h := written_escapeChar c
  generalize escapeChar c = written at h ⊢
  cases h with
  | short e _ he => simpa using he
  | code hc => simpa using ⟨hdigit (c.toNat / 16) (by omega), hdigit (c.toNat % 16) (by omega)⟩
  | plain _ _ hc => simpa using hc

/-- A literal stands on one line, whatever text it denotes. -/
theorem quoted_printable (s : String) : ∀ d ∈ (quoted s).toList, 0x20 ≤ d.toNat := by
  intro d hd
  rw [toList_quoted, List.mem_cons, List.mem_append, List.mem_flatMap, List.mem_singleton] at hd
  rcases hd with rfl | ⟨c, -, hd⟩ | rfl
  · decide
  · exact escapeChar_printable c d hd
  · decide

/-- A literal ends where its text does, whatever follows it. -/
theorem quoted_append_injective {s t : String} {r r' : List Char}
    (h : (quoted s).toList ++ r = (quoted t).toList ++ r') : s = t ∧ r = r' := by
  have hread := congrArg (readQuoted ·.tail) h
  simp only [toList_quoted, List.cons_append, List.append_assoc, List.nil_append, List.tail_cons,
    readQuoted_escaped, Option.some.injEq, Prod.mk.injEq] at hread
  exact ⟨String.toList_inj.mp hread.1, hread.2⟩

end SampleTypes.Json
