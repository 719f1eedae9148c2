import Mathlib.Data.List.Basic
import SampleTypes.Text.Blank

/-! Texts that stand on one line, lines joined and cut again, and how lines begin. -/
namespace SampleTypes.Text

/-- A text without line feeds and carriage returns. -/
def OneLine (s : String) : Prop := ∀ c ∈ s.toList, c ≠ '\n' ∧ c ≠ '\r'

instance (s : String) : Decidable (OneLine s) :=
  List.decidableBAll (fun c => c ≠ '\n' ∧ c ≠ '\r') s.toList

@[simp] lemma oneLine_append (a b : String) : OneLine (a ++ b) ↔ OneLine a ∧ OneLine b := by
  simp only [OneLine, String.toList_append, List.forall_mem_append]

lemma oneLine_ofList (cs : List Char) :
    OneLine (.ofList cs) ↔ ∀ c ∈ cs, c ≠ '\n' ∧ c ≠ '\r' := by
  rw [OneLine, String.toList_ofList]

/-- Backslashes before some characters break no line. -/
lemma oneLine_flatMap {f : Char → List Char} {p : Char → Prop} [DecidablePred p]
    (hf : ∀ c, f c = if p c then ['\\', c] else [c]) {s : String} (h : OneLine s) :
    OneLine (.ofList (s.toList.flatMap f)) := by
  rw [oneLine_ofList]
  intro d hd
  obtain ⟨c, hc, hd⟩ := List.mem_flatMap.mp hd
  rw [hf] at hd
  split at hd
  · rcases List.mem_cons.mp hd with rfl | hd
    · decide
    · rw [List.mem_singleton.mp hd]
      exact h c hc
  · rw [List.mem_singleton.mp hd]
    exact h c hc

/-- A line without a return is kept as it is. -/
lemma dropReturn_of_oneLine {l : String} (h : OneLine l) : dropReturn l.toList = l.toList := by
  rw [dropReturn, if_neg]
  intro hlast
  exact (h '\r' (List.mem_of_getLast? hlast)).2 rfl

/-- Behind characters that cut nothing the first piece goes on. -/
lemma splitBy_append {p : Char → Bool} {cs : List Char} (h : ∀ c ∈ cs, p c = false)
    (rest : List Char) : ∃ piece pieces, splitBy p rest = piece :: pieces ∧
      splitBy p (cs ++ rest) = (cs ++ piece) :: pieces := by
  obtain ⟨piece, pieces, hrest⟩ := List.exists_cons_of_ne_nil (splitBy_ne_nil p rest)
  refine ⟨piece, pieces, hrest, ?_⟩
  induction cs with
  | nil => exact hrest
  | cons c cs ih =>
    obtain ⟨hc, hcs⟩ := List.forall_mem_cons.mp h
    rw [List.cons_append, splitBy, hc, ih hcs]
    simp

lemma splitBy_append_cons {p : Char → Bool} {cs : List Char} (h : ∀ c ∈ cs, p c = false)
    {c : Char} (hc : p c = true) (rest : List Char) :
    splitBy p (cs ++ c :: rest) = cs :: splitBy p rest := by
  obtain ⟨piece, pieces, hrest, hall⟩ := splitBy_append h (c :: rest)
  rw [splitBy, if_pos hc] at hrest
  obtain ⟨rfl, rfl⟩ := List.cons.inj hrest
  rw [hall, List.append_nil]

/-- What follows a cut falls apart by itself. -/
lemma exists_splitBy_append_cons {p : Char → Bool} {c : Char} (hc : p c = true)
    (cs rest : List Char) :
    ∃ piece pieces, splitBy p (cs ++ c :: rest) = piece :: pieces ++ splitBy p rest := by
  induction cs with
  | nil => exact ⟨[], [], by simp [splitBy, hc]⟩
  | cons d cs ih =>
    obtain ⟨piece, pieces, hpieces⟩ := ih
    rw [List.cons_append, splitBy, hpieces]
    split
    · exact ⟨[], piece :: pieces, rfl⟩
    · exact ⟨d :: piece, pieces, rfl⟩

lemma OneLine.not_break {l : String} (h : OneLine l) : ∀ c ∈ l.toList, (c == '\n') = false := by
  intro c hc
  simpa using (h c hc).1

/-- A whole line is cut off at its line break. -/
lemma lines_append_break {l : String} (h : OneLine l) (rest : String) :
    lines (l ++ "\n" ++ rest) = l :: lines rest := by
  have hbreak : "\n".toList = ['\n'] := rfl
  obtain ⟨piece, pieces, hpieces⟩ :=
    List.exists_cons_of_ne_nil (splitBy_ne_nil (· == '\n') rest.toList)
  rw [lines, lines, lineChars, lineChars, String.toList_append, String.toList_append, hbreak,
    List.append_assoc, List.singleton_append, splitBy_append_cons h.not_break (by decide), hpieces]
  simp [dropReturn_of_oneLine h]

/-- What follows a line break is cut by itself. -/
lemma lines_suffix_append_break (l rest : String) : lines rest <:+ lines (l ++ "\n" ++ rest) := by
  have hbreak : "\n".toList = ['\n'] := rfl
  obtain ⟨piece, pieces, hpieces⟩ :=
    exists_splitBy_append_cons (p := (· == '\n')) (c := '\n') rfl l.toList rest.toList
  refine ⟨((piece :: pieces).map dropReturn).map .ofList, ?_⟩
  rw [lines, lines, lineChars, lineChars, String.toList_append, String.toList_append, hbreak,
    List.append_assoc, List.singleton_append, hpieces,
    List.dropLast_append_of_ne_nil (splitBy_ne_nil _ _),
    List.getLast?_append_of_ne_nil _ (splitBy_ne_nil _ _)]
  simp only [List.map_append, List.append_assoc]

/-- Whole lines before others are cut out of the joined text, whatever the others are. -/
lemma lines_intercalate_append {ls : List String} (h : ∀ l ∈ ls, OneLine l) {rest : List String}
    (hne : rest ≠ []) :
    lines ("\n".intercalate (ls ++ rest)) = ls ++ lines ("\n".intercalate rest) := by
  induction ls with
  | nil => rfl
  | cons l ls ih =>
    obtain ⟨hl, hls⟩ := List.forall_mem_cons.mp h
    obtain ⟨next, tail, htail⟩ : ∃ next tail, ls ++ rest = next :: tail :=
      List.exists_cons_of_ne_nil (by simp [hne])
    rw [List.cons_append, htail, String.intercalate_cons_cons, lines_append_break hl,
      ← htail, ih hls]
    rfl

lemma lines_of_oneLine {l : String} (h : OneLine l) : lines l = if l = "" then [] else [l] := by
  rw [lines, lineChars, splitBy_of_all_not h.not_break]
  by_cases hempty : l = ""
  · simp [hempty]
  · simp [hempty]

/-- A line that is not empty is among the lines of a joined text, whatever the others are. -/
lemma mem_lines_intercalate {l : String} (hl : OneLine l) (hne : l ≠ "") {ls : List String}
    (h : l ∈ ls) : l ∈ lines ("\n".intercalate ls) := by
  induction ls with
  | nil => exact absurd h List.not_mem_nil
  | cons a ls ih =>
    cases ls with
    | nil =>
      rw [← List.mem_singleton.mp h, String.intercalate_singleton, lines_of_oneLine hl, if_neg hne]
      exact List.mem_singleton_self l
    | cons b ls =>
      rw [String.intercalate_cons_cons]
      rcases List.mem_cons.mp h with rfl | h
      · rw [lines_append_break hl]
        exact List.mem_cons_self
      · exact (lines_suffix_append_break a _).subset (ih h)

/-- Every line stands in the joined text, also one that is broken itself. -/
lemma infix_intercalate {l : String} {ls : List String} (h : l ∈ ls) :
    l.toList <:+: ("\n".intercalate ls).toList := by
  induction ls with
  | nil => exact absurd h List.not_mem_nil
  | cons a ls ih =>
    cases ls with
    | nil =>
      have hjoined : "\n".intercalate [a] = l := by
        rw [String.intercalate_singleton, List.mem_singleton.mp h]
      exact hjoined ▸ List.infix_rfl
    | cons b ls =>
      rw [String.intercalate_cons_cons, String.toList_append, String.toList_append]
      rcases List.mem_cons.mp h with rfl | h
      · exact (List.prefix_append _ _).isInfix.trans (List.prefix_append _ _).isInfix
      · exact (ih h).trans (List.suffix_append _ _).isInfix

/-- Lines are cut out of their joined text again, but the last of them not if it is empty. -/
theorem lines_intercalate_concat {ls : List String} {last : String} (h : ∀ l ∈ ls, OneLine l)
    (hlast : OneLine last) : lines ("\n".intercalate (ls ++ [last])) =
      ls ++ if last = "" then [] else [last] := by
  rw [lines_intercalate_append h (by simp), String.intercalate_singleton, lines_of_oneLine hlast]

/-- Lines are cut out of their joined text again, unless the last of them is empty. -/
theorem lines_intercalate {ls : List String} (h : ∀ l ∈ ls, OneLine l)
    (hlast : ∀ l, ls.getLast? = some l → l ≠ "") : lines ("\n".intercalate ls) = ls := by
  rcases List.eq_nil_or_concat' ls with rfl | ⟨ls, last, rfl⟩
  · rfl
  · have hne : last ≠ "" := hlast last (by simp)
    rw [lines_intercalate_concat (fun l hl => h l (by simp [hl])) (h last (by simp)), if_neg hne]

/-- Whether a line begins with these characters. -/
def startsWith (head line : String) : Bool := head.toList.isPrefixOf line.toList

lemma startsWith_append_self (head rest : String) : startsWith head (head ++ rest) = true := by
  simp [startsWith]

lemma startsWith_iff {head line : String} :
    startsWith head line = true ↔ ∃ rest, line = head ++ rest := by
  constructor
  · rw [startsWith, List.isPrefixOf_iff_prefix]
    rintro ⟨rest, hrest⟩
    refine ⟨.ofList rest, String.toList_inj.mp ?_⟩
    rw [String.toList_append, String.toList_ofList, hrest]
  · rintro ⟨rest, rfl⟩
    exact startsWith_append_self head rest

/-- The first line of a text begins as the text does. -/
lemma exists_lines_eq_cons {head : String} (hhead : OneLine head) (hne : head ≠ "")
    (rest : String) :
    ∃ l tail, lines (head ++ rest) = l :: tail ∧ startsWith head l = true := by
  obtain ⟨piece, pieces, -, hall⟩ := splitBy_append hhead.not_break rest.toList
  have hpiece : head.toList ++ piece ≠ [] := by simp [hne]
  have hstarts : ∀ cs, startsWith head (.ofList (head.toList ++ cs)) = true := by
    intro cs
    simp [startsWith]
  rw [lines, lineChars, String.toList_append, hall]
  cases pieces with
  | nil => exact ⟨_, [], by simp [hpiece], hstarts piece⟩
  | cons next pieces =>
    have hreturn : ∃ cs, dropReturn (head.toList ++ piece) = head.toList ++ cs := by
      rw [dropReturn]
      split
      · next hlast =>
        refine ⟨piece.dropLast, List.dropLast_append_of_ne_nil ?_⟩
        rintro rfl
        rw [List.append_nil] at hlast
        exact (hhead '\r' (List.mem_of_getLast? hlast)).2 rfl
      · exact ⟨piece, rfl⟩
    obtain ⟨cs, hcs⟩ := hreturn
    rw [List.dropLast_cons_cons, List.map_cons, List.cons_append, List.map_cons, hcs]
    exact ⟨_, _, rfl, hstarts cs⟩

/-- Joined lines begin as the first of them does, and so does the first line that is cut out
again. -/
lemma exists_lines_intercalate_eq_cons {head : String} (hhead : OneLine head) (hne : head ≠ "")
    {l : String} (hl : startsWith head l = true) (ls : List String) :
    ∃ l' rest, lines ("\n".intercalate (l :: ls)) = l' :: rest ∧ startsWith head l' = true := by
  obtain ⟨rest, rfl⟩ := startsWith_iff.mp hl
  cases ls with
  | nil =>
    rw [String.intercalate_singleton]
    exact exists_lines_eq_cons hhead hne rest
  | cons next ls =>
    rw [String.intercalate_cons_cons, String.append_assoc, String.append_assoc]
    exact exists_lines_eq_cons hhead hne _

/-- Neither of two texts begins with the other. -/
def Apart (a b : String) : Prop := startsWith a b = false ∧ startsWith b a = false

instance (a b : String) : Decidable (Apart a b) :=
  inferInstanceAs (Decidable (startsWith a b = false ∧ startsWith b a = false))

lemma Apart.startsWith_append {head a : String} (h : Apart head a) (rest : String) :
    startsWith head (a ++ rest) = false := by
  obtain ⟨h₁, h₂⟩ := h
  simp only [startsWith, ← Bool.not_eq_true, List.isPrefixOf_iff_prefix, String.toList_append]
    at h₁ h₂ ⊢
  intro hprefix
  rcases List.prefix_or_prefix_of_prefix hprefix
    (List.prefix_append a.toList rest.toList) with h | h
  · exact h₁ h
  · exact h₂ h

end SampleTypes.Text
