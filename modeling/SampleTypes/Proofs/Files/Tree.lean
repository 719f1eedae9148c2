import Mathlib.Tactic.Common
import SampleTypes.Files.Tree

/-! What a file holds after it was written. Writing puts a file where no directory stands, so the
way that leads there is the same afterwards. -/
namespace SampleTypes.Files.Tree

variable {t t' : Tree} {place : List String}

/-- The working directory and those above it are no place for a file. -/
lemma not_isPrefixOf_of_not_isDirectory (h : t.isDirectory place = false) :
    place.isPrefixOf t.workingDirectory = false := by
  by_contra hprefix
  have hdirectory : t.isDirectory place = true := by
    simp only [Bool.not_eq_false] at hprefix
    simp [isDirectory, get?, hprefix]
  rw [h] at hdirectory
  contradiction

/-- Directories stay where they are when a node is put in another place. -/
lemma isDirectory_set_of_isDirectory (node : Node) {a : List String} (ha : t.isDirectory a = true)
    (hplace : t.isDirectory place = false) : (t.set place node).isDirectory a = true := by
  have hne : a ≠ place := by
    rintro rfl
    rw [ha] at hplace
    contradiction
  rw [isDirectory, get?_set_of_ne node hne]
  exact ha

/-- A way over directories stays open while they stay. -/
lemma walk_mono (hkept : ∀ a, t.isDirectory a = true → t'.isDirectory a = true)
    {steps : List String} {start goal : List String} (h : t.walk start steps = some goal) :
    t'.walk start steps = some goal := by
  induction steps generalizing start with
  | nil => exact h
  | cons s steps ih =>
    rw [walk] at h ⊢
    split_ifs at h with hstart
    simp only [Bool.and_eq_true] at hstart
    rw [if_pos (by simp [hkept start hstart.1, hstart.2])]
    exact ih h

lemma start_congr (h : t'.workingDirectory = t.workingDirectory) (path : String) :
    t'.start path = t.start path := by
  rw [start, start, h]

lemma locate?_mono (hkept : ∀ a, t.isDirectory a = true → t'.isDirectory a = true)
    (hworking : t'.workingDirectory = t.workingDirectory) {path : String} {goal : List String}
    (h : t.locate? path = some goal) : t'.locate? path = some goal := by
  rw [locate?] at h ⊢
  split_ifs at h with husable
  rw [if_pos husable, start_congr hworking]
  exact walk_mono hkept h

/-- A file holds what was written to it. -/
theorem read?_writeFile {path : String} {content : Content}
    (h : t.writeFile path content = (t', true)) : t'.read? path = some content := by
  rw [writeFile] at h
  split at h
  · simp at h
  · next place hplace =>
    split_ifs at h with hbad
    · simp at h
    · simp only [Bool.or_eq_true, not_or, Bool.not_eq_true] at hbad
      obtain ⟨rfl, -⟩ := Prod.mk.inj h
      have hlocate : (t.set place (.file content)).locate? path = some place :=
        locate?_mono (fun a ha => isDirectory_set_of_isDirectory _ ha hbad.2) rfl hplace
      have hget := get?_set_self (.file content) (not_isPrefixOf_of_not_isDirectory hbad.2)
      rw [read?, hlocate, Option.bind_some, hget]
      simp [hbad.1]

/-- A successful write is what the next read finds. -/
theorem read?_write {path : String} {content : Content}
    (h : t.write path content = (t', true)) : t'.read? path = some content := by
  rw [write] at h
  split_ifs at h with husable
  · split at h
    · simp at h
    · exact read?_writeFile h
  · simp at h

end SampleTypes.Files.Tree
