import Mathlib.Data.List.Basic

/-! Backslashes before the characters that would end a literal or mean something in it. A text
that gets those for all its marks in one pass is the one that gets them for one mark after the
other. -/
namespace SampleTypes.Text

/-- A text with a backslash put before every `c`. -/
def backslashed (c : Char) (s : List Char) : List Char :=
  s.flatMap fun d => if d = c then ['\\', d] else [d]

/-- A text with a backslash put before every one of these marks. -/
def backslashedAll (marks : List Char) (s : List Char) : List Char :=
  s.flatMap fun d => if d ∈ marks then ['\\', d] else [d]

variable {marks : List Char} {c : Char}

/-- A mark that is no backslash is found where it was before the others got theirs. -/
lemma backslashed_backslashedAll (hmarks : c ∉ marks) (hc : c ≠ '\\') (s : List Char) :
    backslashed c (backslashedAll marks s) = backslashedAll (marks ++ [c]) s := by
  rw [backslashed, backslashedAll, backslashedAll, List.flatMap_assoc]
  congr 1
  funext d
  by_cases hmark : d ∈ marks
  · have hd : d ≠ c := ne_of_mem_of_not_mem hmark hmarks
    simp [hmark, hd, hc.symm]
  by_cases hd : d = c
  · simp [hd, hmarks]
  · simp [hmark, hd]

/-- After the marks that have theirs, the rest get their backslashes one after the other. -/
lemma foldl_backslashed (marks rest : List Char) (hmarks : (marks ++ rest).Nodup)
    (hrest : '\\' ∉ rest) (s : List Char) :
    rest.foldl (fun s c => backslashed c s) (backslashedAll marks s) =
      backslashedAll (marks ++ rest) s := by
  induction rest generalizing marks with
  | nil => simp
  | cons c rest ih =>
    obtain ⟨-, -, hapart⟩ := List.nodup_append.mp hmarks
    have hc : c ∉ marks := fun hmem => hapart c hmem c List.mem_cons_self rfl
    have hne : c ≠ '\\' := fun h => hrest (by simp [h])
    rw [List.append_cons] at hmarks
    rw [List.foldl_cons, backslashed_backslashedAll hc hne,
      ih _ hmarks (List.not_mem_of_not_mem_cons hrest), ← List.append_cons]

/-- One pass for backslashes and other marks puts backslashes before the backslashes first, so
that no later one is escaped again. -/
theorem flatMap_eq_foldl_backslashed (marks : List Char) (hmarks : ('\\' :: marks).Nodup)
    {f : Char → List Char} (hf : ∀ c, f c = if c ∈ '\\' :: marks then ['\\', c] else [c])
    (s : List Char) :
    s.flatMap f = marks.foldl (fun s c => backslashed c s) (backslashed '\\' s) := by
  have hpass : s.flatMap f = backslashedAll ('\\' :: marks) s := by
    rw [funext hf]
    rfl
  have hfirst : backslashed '\\' s = backslashedAll ['\\'] s := by
    simp [backslashed, backslashedAll]
  rw [hpass, hfirst]
  exact (foldl_backslashed ['\\'] marks hmarks (List.nodup_cons.mp hmarks).1 s).symm

end SampleTypes.Text
