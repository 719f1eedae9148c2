import SampleTypes.Generate
import SampleTypes.Proofs.Target.FlatPrinters
import SampleTypes.Proofs.Target.StringSyntax
import SampleTypes.Proofs.Text.Backslash

/-! Keys as string literals of Dart. Backslashes, quotes and dollar signs are escaped, so a
literal never ends early and holds no interpolation. Line breaks are not, and a literal in single
quotes cannot be broken, so a key is read back just if it stands on one line. -/
namespace SampleTypes.Target.Dart

open Text StringSyntax

/-- Letters behind a backslash that do not stand for themselves. -/
def letters : List (Char × Char) :=
  [('n', '\n'), ('r', '\r'), ('f', '\x0c'), ('b', '\x08'), ('t', '\t'), ('v', '\x0b')]

/-- Behind a backslash the letter of a code stands for nothing by itself, and neither does a line
break. -/
def letter? (c : Char) : Option Char :=
  if c ∈ ['x', '\n', '\r'] then none else (letters.lookup c).getD c

/-- Strings in single quotes. Whatever follows a dollar sign is an interpolation. -/
def strings : StringSyntax where
  quote := '\''
  letter? := letter?
  opens c _ := c == '$'
  forbids c := c == '\n' || c == '\r'

/-- Backslashes go first, so that no later one is escaped again. -/
lemma flatMap_escapeChar (s : List Char) :
    s.flatMap escapeChar = backslashed '$' (backslashed '\'' (backslashed '\\' s)) :=
  flatMap_eq_foldl_backslashed ['\'', '$'] (by decide) (fun c => by simp [escapeChar]) s

/-- A character is read as itself, escaped or not, unless it breaks the line. -/
lemma read_escapeChar (c : Char) (cs : List Char) : strings.read 0 (escapeChar c ++ cs) =
    if c ≠ '\n' ∧ c ≠ '\r' then (strings.read 0 cs).cons c else .refused := by
  rw [escapeChar]
  by_cases hc : c = '\\' ∨ c = '\'' ∨ c = '$'
  · rw [if_pos hc]
    rcases hc with rfl | rfl | rfl <;> rfl
  · have hquote : c ≠ strings.quote := fun h => hc (Or.inr (Or.inl h))
    have hbackslash : c ≠ '\\' := fun h => hc (Or.inl h)
    have hopens : strings.opens c cs.head? ≠ true := fun h =>
      hc (Or.inr (Or.inr (beq_iff_eq.mp h)))
    have hforbids : strings.forbids c = true ↔ c = '\n' ∨ c = '\r' := by
      simp only [strings, Bool.or_eq_true, beq_iff_eq]
    rw [if_neg hc, List.singleton_append, StringSyntax.read, if_neg hquote, if_neg hbackslash,
      if_neg hopens]
    by_cases hbreak : c = '\n' ∨ c = '\r'
    · rw [if_pos (hforbids.mpr hbreak),
        if_neg (not_and_or.mpr (hbreak.imp not_not_intro not_not_intro))]
    · rw [if_neg (hforbids.not.mpr hbreak), if_pos (not_or.mp hbreak)]

/-- Reading comes to the closing quote with the text, or stops at the first line break in it. -/
lemma read_flatMap_escapeChar (s rest : List Char) :
    ((∀ c ∈ s, c ≠ '\n' ∧ c ≠ '\r') →
      strings.read 0 (s.flatMap escapeChar ++ '\'' :: rest) = .text s rest) ∧
    (¬(∀ c ∈ s, c ≠ '\n' ∧ c ≠ '\r') →
      strings.read 0 (s.flatMap escapeChar ++ '\'' :: rest) = .refused) := by
  induction s with
  | nil => exact ⟨fun _ => rfl, fun h => absurd (List.forall_mem_nil _) h⟩
  | cons c s ih =>
    obtain ⟨hplain, hbroken⟩ := ih
    rw [List.flatMap_cons, List.append_assoc, read_escapeChar, List.forall_mem_cons]
    constructor
    · rintro ⟨hc, hs⟩
      rw [if_pos hc, hplain hs, Reading.cons]
    · intro h
      by_cases hc : c ≠ '\n' ∧ c ≠ '\r'
      · rw [if_pos hc, hbroken fun hs => h ⟨hc, hs⟩, Reading.cons]
      · rw [if_neg hc]

lemma toList_singleQuoted (s : String) :
    (singleQuoted s).toList = '\'' :: (s.toList.flatMap escapeChar ++ ['\'']) := by
  simp [singleQuoted, String.toList_append]

/-- A literal is read as its text up to the closing quote, or not at all. -/
lemma readAs_singleQuoted (s : String) : strings.ReadAs (singleQuoted s) fun rest =>
    if OneLine s then .text s.toList rest else .refused := by
  refine ⟨s.toList.flatMap escapeChar ++ ['\''], toList_singleQuoted s, fun rest => ?_⟩
  obtain ⟨hplain, hbroken⟩ := read_flatMap_escapeChar s.toList rest
  rw [List.append_assoc, List.singleton_append]
  by_cases hs : OneLine s
  · exact (hplain hs).trans (if_pos hs).symm
  · exact (hbroken hs).trans (if_neg hs).symm

lemma mem_escapeChar_self (c : Char) : c ∈ escapeChar c := by
  rw [escapeChar]
  split <;> simp

/-- A line break in a text is one in its literal. -/
lemma oneLine_of_singleQuoted {s : String} (h : OneLine (singleQuoted s)) : OneLine s := by
  intro c hc
  apply h c
  rw [toList_singleQuoted]
  apply List.mem_cons_of_mem
  exact List.mem_append_left _ (List.mem_flatMap.mpr ⟨c, hc, mem_escapeChar_self c⟩)

/-- The literal for a key puts a backslash before every backslash, then before every quote and
then before every dollar sign. It is read as the key and ends with its last character if the key
stands on one line, and otherwise is refused and broken itself; it never holds an interpolation. -/
theorem denotes_singleQuoted_iff_oneLine (key : String) :
    (singleQuoted key).toList = '\'' ::
      (backslashed '$' (backslashed '\'' (backslashed '\\' key.toList)) ++ ['\'']) ∧
    (strings.ReadAs (singleQuoted key) fun rest =>
      if OneLine key then .text key.toList rest else .refused) ∧
    (strings.Denotes (singleQuoted key) key ↔ OneLine key) ∧
    ¬strings.Evaluates (singleQuoted key) ∧
    (OneLine (singleQuoted key) ↔ OneLine key) := by
  have hread := readAs_singleQuoted key
  have hescaped : OneLine key → OneLine (singleQuoted key) := oneLine_singleQuoted
  refine ⟨?_, hread, ?_, ?_, oneLine_of_singleQuoted, hescaped⟩
  · rw [toList_singleQuoted, flatMap_escapeChar]
  · constructor
    · intro hdenotes
      by_contra hkey
      have hnil := congrFun (hread.unique hdenotes) []
      rw [if_neg hkey] at hnil
      cases hnil
    · intro hkey
      simpa only [Denotes, if_pos hkey] using hread
  · intro hevaluates
    have hnil := congrFun (hread.unique hevaluates) []
    split at hnil
    · cases hnil
    · cases hnil

/-- A key with a line feed in it, and the code for it. -/
theorem line_feed_breaks_literal :
    let sample : Json := .object [("a\nb", .number (.int 1))]
    Language.dart.generate sample "Root" true =
      "class Root \x7b\n  int? a\nb;\n\n" ++
        "  Root.fromJson(Map<String, dynamic> json) \x7b\n    a\nb = json['a\nb'];\n  \x7d\n\n" ++
        "  Map<String, dynamic> toJson() \x7b\n    final data = <String, dynamic>\x7b\x7d;\n" ++
        "    data['a\nb'] = a\nb;\n    return data;\n  \x7d\n\x7d" ∧
    singleQuoted "a\nb" = "'a\nb'" ∧ ¬OneLine (singleQuoted "a\nb") ∧
    ¬strings.Denotes (singleQuoted "a\nb") "a\nb" := by
  intro sample
  refine ⟨by decide +kernel, by decide, by decide, fun hdenotes => ?_⟩
  have hnil := congrFun ((readAs_singleQuoted "a\nb").unique hdenotes) []
  cases hnil

end SampleTypes.Target.Dart
