import Mathlib.Logic.Function.Basic
import Mathlib.Tactic.MkIffOfInductiveProp
import SampleTypes.Proofs.Files.Tree

/-! What a write does to the rest of a tree. It makes the directories on its way and puts one
file, so every other file holds what it held; and the tree before tells whether it succeeds. -/
namespace SampleTypes.Files.Tree

variable {t t' : Tree} {place : List String} {path : String}

/-- What the file in a place holds, whether a path leads there or not. -/
def fileAt? (t : Tree) (place : List String) : Option Content :=
  match t.get? place with
  | some (.file content) => some content
  | _ => none

/-- The place that a path stands for. -/
def placeOf (t : Tree) (path : String) : List String :=
  (Path.steps path).foldl step (t.start path)

/-- The places that steps come to, the last one too. -/
def along (place : List String) : List String → List (List String)
  | [] => []
  | s :: steps => step place s :: along (step place s) steps

/-- The places that must be directories for a path to lead to a file. -/
def passed (t : Tree) (path : String) : List (List String) :=
  along (t.start path) (Path.steps path).dropLast

lemma placeOf_congr (h : t'.workingDirectory = t.workingDirectory) (path : String) :
    t'.placeOf path = t.placeOf path := by
  rw [placeOf, placeOf, start_congr h]

lemma fileAt?_eq_some_iff {content : Content} :
    t.fileAt? place = some content ↔ t.get? place = some (.file content) := by
  rw [fileAt?]
  split <;> simp_all

lemma fileAt?_of_isDirectory (h : t.isDirectory place = true) : t.fileAt? place = none := by
  have hget : t.get? place = some .directory := of_decide_eq_true h
  rw [fileAt?, hget]

lemma isDirectory_start (t : Tree) (path : String) : t.isDirectory (t.start path) = true := by
  rw [start]
  split_ifs <;> simp [isDirectory, get?]

/-! Ways. -/

lemma walk_eq_some {steps : List String} {goal : List String} (h : t.walk place steps = some goal) :
    goal = steps.foldl step place ∧ ∀ s ∈ steps, isName s = true := by
  induction steps generalizing place with
  | nil => exact ⟨(Option.some.inj h).symm, List.forall_mem_nil _⟩
  | cons s steps ih =>
    rw [walk] at h
    split_ifs at h with hstart
    simp only [Bool.and_eq_true] at hstart
    obtain ⟨hgoal, hnames⟩ := ih h
    exact ⟨hgoal, List.forall_mem_cons.mpr ⟨hstart.2, hnames⟩⟩

/-- Steps that lead somewhere come by directories. -/
lemma isDirectory_of_walk {steps : List String} {goal : List String}
    (h : t.walk place steps = some goal) :
    ∀ p ∈ along place steps.dropLast, t.isDirectory p = true := by
  induction steps generalizing place with
  | nil => exact List.forall_mem_nil _
  | cons s steps ih =>
    rw [walk] at h
    split_ifs at h
    cases steps with
    | nil => exact List.forall_mem_nil _
    | cons next steps =>
      rw [List.dropLast_cons_cons, along, List.forall_mem_cons]
      refine ⟨?_, ih h⟩
      rw [walk] at h
      split_ifs at h with hstep
      simp only [Bool.and_eq_true] at hstep
      exact hstep.1

/-- Steps lead on while they come by directories; the last place need not be one. -/
lemma walk_of_isDirectory {steps : List String} (hplace : t.isDirectory place = true)
    (hnames : ∀ s ∈ steps, isName s = true)
    (halong : ∀ p ∈ along place steps.dropLast, t.isDirectory p = true) :
    t.walk place steps = some (steps.foldl step place) := by
  induction steps generalizing place with
  | nil => rfl
  | cons s steps ih =>
    obtain ⟨hs, hnames⟩ := List.forall_mem_cons.mp hnames
    rw [walk, if_pos (by simp [hplace, hs]), List.foldl_cons]
    cases steps with
    | nil => rfl
    | cons next steps =>
      rw [List.dropLast_cons_cons, along] at halong
      obtain ⟨hstep, halong⟩ := List.forall_mem_cons.mp halong
      exact ih hstep hnames halong

lemma locate?_eq_some {goal : List String} (h : t.locate? path = some goal) :
    goal = t.placeOf path ∧ ∀ s ∈ Path.steps path, isName s = true := by
  rw [locate?] at h
  split_ifs at h
  exact walk_eq_some h

lemma isDirectory_of_locate? {goal : List String} (h : t.locate? path = some goal) :
    ∀ p ∈ t.passed path, t.isDirectory p = true := by
  rw [locate?] at h
  split_ifs at h
  exact isDirectory_of_walk h

/-- What is read along a path is what the file in its place holds. -/
lemma read?_eq_some_iff {content : Content} :
    t.read? path = some content ↔ t.locate? path = some (t.placeOf path) ∧
      Path.isForDirectory path = false ∧ t.fileAt? (t.placeOf path) = some content := by
  rw [read?, fileAt?_eq_some_iff]
  cases hlocate : t.locate? path with
  | none => simp
  | some goal =>
    obtain ⟨rfl, -⟩ := locate?_eq_some hlocate
    rw [Option.bind_some]
    split
    · next found hget =>
      rw [hget]
      cases Path.isForDirectory path <;> simp
    · next hget =>
      simp only [reduceCtorEq, true_and, false_iff, not_and]
      exact fun _ hfile => hget content hfile

/-! Making directories. -/

lemma get?_set_of_get?_eq_none (node : Node) (h : t.get? place = none) :
    (t.set place node).get? place = some node :=
  get?_set_self node (not_isPrefixOf_of_not_isDirectory (by simp [isDirectory, h]))

/-- A tree with more directories, all of them in the given places. -/
structure Grown (t t' : Tree) (places : List (List String)) : Prop where
  workingDirectory : t'.workingDirectory = t.workingDirectory
  get? : ∀ p, t'.get? p = t.get? p ∨
    t.get? p = none ∧ t'.get? p = some .directory ∧ p ∈ places

namespace Grown

variable {ps qs : List (List String)}

lemma refl (t : Tree) (ps : List (List String)) : Grown t t ps := ⟨rfl, fun _ => .inl rfl⟩

lemma trans {t'' : Tree} (h : Grown t t' ps) (h' : Grown t' t'' qs) (hps : ps ⊆ qs) :
    Grown t t'' qs := by
  refine ⟨h'.workingDirectory.trans h.workingDirectory, fun p => ?_⟩
  obtain hsame | ⟨hnone, hdirectory, hp⟩ := h.get? p
  · rw [← hsame]
    exact h'.get? p
  · obtain hsame' | ⟨hnone', -, -⟩ := h'.get? p
    · exact .inr ⟨hnone, hsame'.trans hdirectory, hps hp⟩
    · rw [hdirectory] at hnone'
      contradiction

lemma mono (h : Grown t t' ps) (hps : ps ⊆ qs) : Grown t t' qs := h.trans (refl t' qs) hps

/-- Files stay what they are. -/
lemma fileAt? (h : Grown t t' ps) : t'.fileAt? = t.fileAt? := by
  funext p
  obtain hsame | ⟨hnone, hdirectory, -⟩ := h.get? p
  · rw [Tree.fileAt?, Tree.fileAt?, hsame]
  · rw [Tree.fileAt?, Tree.fileAt?, hnone, hdirectory]

lemma isDirectory (h : Grown t t' ps) {p : List String} (hp : t.isDirectory p = true) :
    t'.isDirectory p = true := by
  obtain hsame | ⟨-, hdirectory, -⟩ := h.get? p
  · rw [Tree.isDirectory, hsame]
    exact hp
  · exact decide_eq_true hdirectory

/-- No directory is made anywhere else. -/
lemma isDirectory_eq (h : Grown t t' ps) {p : List String} (hp : p ∉ ps) :
    t'.isDirectory p = t.isDirectory p := by
  obtain hsame | ⟨-, -, hmem⟩ := h.get? p
  · rw [Tree.isDirectory, Tree.isDirectory, hsame]
  · contradiction

end Grown

lemma grown_set (h : t.get? place = none) : Grown t (t.set place .directory) [place] := by
  refine ⟨rfl, fun p => ?_⟩
  by_cases hp : p = place
  · subst hp
    exact .inr ⟨h, get?_set_of_get?_eq_none _ h, List.mem_singleton_self p⟩
  · exact .inl (get?_set_of_ne _ hp)

lemma grown_makeDirectories (t : Tree) (place : List String) (steps : List String) :
    Grown t (t.makeDirectories place steps).1 (along place steps) := by
  induction steps generalizing t place with
  | nil => exact .refl t _
  | cons s steps ih =>
    rw [makeDirectories, along]
    split
    · exact (ih t _).mono (List.subset_cons_self _ _)
    · exact .refl t _
    · next hnone =>
      split_ifs
      · refine Grown.trans (grown_set hnone) ((ih _ _).mono (List.subset_cons_self _ _)) ?_
        simp
      · exact .refl t _

/-- Where directories could be made, all places are directories. -/
lemma isDirectory_makeDirectories {steps : List String}
    (h : (t.makeDirectories place steps).2 = true) :
    ∀ p ∈ along place steps, (t.makeDirectories place steps).1.isDirectory p = true := by
  induction steps generalizing t place with
  | nil => exact List.forall_mem_nil _
  | cons s steps ih =>
    rw [makeDirectories] at h ⊢
    rw [along, List.forall_mem_cons]
    split at h
    · next hget =>
      exact ⟨(grown_makeDirectories _ _ _).isDirectory (decide_eq_true hget), ih h⟩
    · contradiction
    · next hnone =>
      split_ifs at h ⊢
      have hmade := get?_set_of_get?_eq_none .directory hnone
      exact ⟨(grown_makeDirectories _ _ _).isDirectory (decide_eq_true hmade), ih h⟩

/-- Directories can be made where no file is in the way and every step is a name. -/
lemma makeDirectories_succeeds {steps : List String} (hnames : ∀ s ∈ steps, isName s = true)
    (hfree : ∀ p ∈ along place steps, t.fileAt? p = none) :
    (t.makeDirectories place steps).2 = true := by
  induction steps generalizing t place with
  | nil => rfl
  | cons s steps ih =>
    obtain ⟨hs, hnames⟩ := List.forall_mem_cons.mp hnames
    obtain ⟨hstep, hfree⟩ := List.forall_mem_cons.mp hfree
    rw [makeDirectories]
    split
    · exact ih hnames hfree
    · next content hget =>
      rw [fileAt?_eq_some_iff.mpr hget] at hstep
      contradiction
    · next hnone =>
      rw [if_pos hs]
      refine ih hnames ?_
      rw [(grown_set hnone).fileAt?]
      exact hfree

/-! Writing. -/

/-- A file can be written along a path: its steps are names, no file is in the way, and in its place
there is no directory and none has to be. -/
@[mk_iff]
structure CanWrite (t : Tree) (path : String) : Prop where
  usable : Path.isUsable path = true
  forFile : Path.isForDirectory path = false
  names : ∀ s ∈ Path.steps path, isName s = true
  free : ∀ p ∈ t.passed path, t.fileAt? p = none
  noDirectory : t.isDirectory (t.placeOf path) = false
  notPassed : t.placeOf path ∉ t.passed path

/-- A write that can be done makes the directories on the way and puts the file. -/
lemma write_of_canWrite (h : t.CanWrite path) (content : Content) :
    ∃ made, Grown t made (t.passed path) ∧ made.isDirectory (t.placeOf path) = false ∧
      t.write path content = (made.set (t.placeOf path) (.file content), true) := by
  have hgrown := grown_makeDirectories t (t.start path) (Path.steps path).dropLast
  have hdone : (t.makeDirectories (t.start path) (Path.steps path).dropLast).2 = true :=
    makeDirectories_succeeds (fun s hs => h.names s (List.dropLast_subset _ hs)) h.free
  have halong := isDirectory_makeDirectories hdone
  rw [write, if_pos h.usable]
  cases hmake : t.makeDirectories (t.start path) (Path.steps path).dropLast with
  | mk made done =>
    rw [hmake] at hgrown hdone halong
    obtain rfl : done = true := hdone
    have hlocate : made.locate? path = some (t.placeOf path) := by
      rw [locate?, if_pos h.usable, start_congr hgrown.workingDirectory]
      exact walk_of_isDirectory (hgrown.isDirectory (isDirectory_start t path)) h.names halong
    have hplace : made.isDirectory (t.placeOf path) = false :=
      (hgrown.isDirectory_eq h.notPassed).trans h.noDirectory
    refine ⟨made, hgrown, hplace, ?_⟩
    simp [writeFile, hlocate, h.forFile, hplace]

/-- With all directories made, only a directory in the place of the file can be against it. -/
lemma canWrite_of_grown {made : Tree} {goal : List String} (hgrown : Grown t made (t.passed path))
    (hmade : ∀ p ∈ t.passed path, made.isDirectory p = true)
    (husable : Path.isUsable path = true) (hforFile : Path.isForDirectory path = false)
    (hlocate : made.locate? path = some goal) (hgoal : made.isDirectory goal = false) :
    t.CanWrite path := by
  obtain ⟨rfl, hnames⟩ := locate?_eq_some hlocate
  rw [placeOf_congr hgrown.workingDirectory] at hgoal
  refine ⟨husable, hforFile, hnames, fun p hp => ?_, ?_, fun hpassed => ?_⟩
  · rw [← hgrown.fileAt?]
    exact fileAt?_of_isDirectory (hmade p hp)
  · by_contra hdirectory
    rw [Bool.not_eq_false] at hdirectory
    rw [hgrown.isDirectory hdirectory] at hgoal
    contradiction
  · rw [hmade _ hpassed] at hgoal
    contradiction

/-- A write that cannot be done makes some of the directories at most. -/
lemma write_of_not_canWrite (h : ¬ t.CanWrite path) (content : Content) :
    ∃ made, Grown t made (t.passed path) ∧ t.write path content = (made, false) := by
  have hgrown := grown_makeDirectories t (t.start path) (Path.steps path).dropLast
  rw [write]
  split_ifs with husable
  · split
    · next made hmake =>
      rw [hmake] at hgrown
      exact ⟨made, hgrown, rfl⟩
    · next made hmake =>
      have hmade := isDirectory_makeDirectories (congrArg Prod.snd hmake)
      rw [hmake] at hgrown hmade
      refine ⟨made, hgrown, ?_⟩
      rw [writeFile]
      split
      · rfl
      · next goal hlocate =>
        refine if_pos ?_
        by_contra hopen
        simp only [Bool.or_eq_true, not_or, Bool.not_eq_true] at hopen
        exact h (canWrite_of_grown hgrown hmade husable hopen.1 hlocate hopen.2)
  · exact ⟨t, .refl t _, rfl⟩

/-- The tree before tells whether a write succeeds. -/
theorem write_succeeds_iff {content : Content} :
    (t.write path content).2 = true ↔ t.CanWrite path := by
  constructor
  · intro h
    by_contra hcannot
    obtain ⟨made, -, hwrite⟩ := write_of_not_canWrite hcannot content
    rw [hwrite] at h
    contradiction
  · intro h
    obtain ⟨made, -, -, hwrite⟩ := write_of_canWrite h content
    rw [hwrite]

/-- A write changes the file that it is for, if it succeeds, and no other. -/
theorem fileAt?_write (t : Tree) (path : String) (content : Content) :
    (t.write path content).1.fileAt? =
      if (t.write path content).2 then
        Function.update t.fileAt? (t.placeOf path) (some content)
      else t.fileAt? := by
  by_cases h : t.CanWrite path
  · obtain ⟨made, hgrown, hplace, hwrite⟩ := write_of_canWrite h content
    rw [hwrite, if_pos rfl]
    funext p
    by_cases hp : p = t.placeOf path
    · rw [hp, Function.update_self, fileAt?_eq_some_iff]
      exact get?_set_self _ (not_isPrefixOf_of_not_isDirectory hplace)
    · rw [Function.update_of_ne hp, ← hgrown.fileAt?, fileAt?, fileAt?, get?_set_of_ne _ hp]
  · obtain ⟨made, hgrown, hwrite⟩ := write_of_not_canWrite h content
    rw [hwrite, if_neg Bool.false_ne_true, hgrown.fileAt?]

lemma fileAt?_write_self (t : Tree) (path : String) (content : Content) :
    (t.write path content).1.fileAt? (t.placeOf path) =
      if (t.write path content).2 then some content else t.fileAt? (t.placeOf path) := by
  rw [fileAt?_write]
  split_ifs
  · exact Function.update_self _ _ _
  · rfl

/-- Whatever directories are made, no file is found where none can be written: a path that finds a
file is one for which nothing has to be made. -/
lemma read?_eq_none_of_grown {made : Tree} (hgrown : Grown t made (t.passed path))
    (h : ¬ t.CanWrite path) : made.read? path = none := by
  by_contra hread
  obtain ⟨content, hread⟩ := Option.ne_none_iff_exists'.mp hread
  obtain ⟨hlocate, hforFile, hfile⟩ := read?_eq_some_iff.mp hread
  have husable : Path.isUsable path = true := by
    by_contra hnot
    rw [locate?, if_neg hnot] at hlocate
    contradiction
  have hmade := isDirectory_of_locate? hlocate
  rw [passed, start_congr hgrown.workingDirectory] at hmade
  have hplace : made.isDirectory (made.placeOf path) = false := by
    by_contra hdirectory
    rw [fileAt?_of_isDirectory (Bool.not_eq_false _ ▸ hdirectory)] at hfile
    contradiction
  exact h (canWrite_of_grown hgrown hmade husable hforFile hlocate hplace)

/-- A write that cannot be done leaves what is read along its path. -/
lemma read?_write_of_not_canWrite (h : ¬ t.CanWrite path) (content : Content) :
    (t.write path content).1.read? path = t.read? path := by
  obtain ⟨made, hgrown, hwrite⟩ := write_of_not_canWrite h content
  rw [hwrite, read?_eq_none_of_grown hgrown h, read?_eq_none_of_grown (.refl t _) h]

/-! What a write means for another path. -/

lemma workingDirectory_write (t : Tree) (path : String) (content : Content) :
    (t.write path content).1.workingDirectory = t.workingDirectory := by
  by_cases h : t.CanWrite path
  · obtain ⟨made, hgrown, -, hwrite⟩ := write_of_canWrite h content
    rw [hwrite]
    exact hgrown.workingDirectory
  · obtain ⟨made, hgrown, hwrite⟩ := write_of_not_canWrite h content
    rw [hwrite, hgrown.workingDirectory]

lemma isDirectory_write (content : Content) (h : t.isDirectory place = true) :
    (t.write path content).1.isDirectory place = true := by
  by_cases hcan : t.CanWrite path
  · obtain ⟨made, hgrown, hplace, hwrite⟩ := write_of_canWrite hcan content
    rw [hwrite]
    exact isDirectory_set_of_isDirectory _ (hgrown.isDirectory h) hplace
  · obtain ⟨made, hgrown, hwrite⟩ := write_of_not_canWrite hcan content
    rw [hwrite]
    exact hgrown.isDirectory h

lemma isDirectory_write_eq (content : Content) (hplace : place ≠ t.placeOf path)
    (hpassed : place ∉ t.passed path) :
    (t.write path content).1.isDirectory place = t.isDirectory place := by
  by_cases hcan : t.CanWrite path
  · obtain ⟨made, hgrown, -, hwrite⟩ := write_of_canWrite hcan content
    rw [hwrite, isDirectory, get?_set_of_ne _ hplace]
    exact hgrown.isDirectory_eq hpassed
  · obtain ⟨made, hgrown, hwrite⟩ := write_of_not_canWrite hcan content
    rw [hwrite]
    exact hgrown.isDirectory_eq hpassed

/-- A path finds the file in its place, if there is one: it comes by no place that is missing. -/
def Finds (t : Tree) (path : String) : Prop := t.read? path = t.fileAt? (t.placeOf path)

/-- Two paths are for different files, neither of which is in the way of the other. -/
structure Apart (t : Tree) (a b : String) : Prop where
  ne : t.placeOf a ≠ t.placeOf b
  notPassed : t.placeOf a ∉ t.passed b
  notPassed' : t.placeOf b ∉ t.passed a

variable {other : String}

lemma finds_of_read? {content : Content} (h : t.read? path = some content) : t.Finds path :=
  h.trans (read?_eq_some_iff.mp h).2.2.symm

/-- A file that can be read is not in the way of one that can be written, nor is that one in its
way. -/
lemma apart_of_read? {content : Content} (hcan : t.CanWrite path)
    (hread : t.read? other = some content) (h : t.placeOf path ≠ t.placeOf other) :
    t.Apart path other := by
  obtain ⟨hlocate, -, hfile⟩ := read?_eq_some_iff.mp hread
  refine ⟨h, fun hpassed => ?_, fun hpassed => ?_⟩
  · have hdirectory := isDirectory_of_locate? hlocate _ hpassed
    rw [hcan.noDirectory] at hdirectory
    contradiction
  · have hnone := hcan.free _ hpassed
    rw [hfile] at hnone
    contradiction

section

variable (content : Content)

lemma placeOf_write (t : Tree) (path other : String) :
    (t.write path content).1.placeOf other = t.placeOf other :=
  placeOf_congr (workingDirectory_write t path content) other

lemma passed_write (t : Tree) (path other : String) :
    (t.write path content).1.passed other = t.passed other := by
  rw [passed, passed, start_congr (workingDirectory_write t path content)]

lemma fileAt?_write_of_ne (h : place ≠ t.placeOf path) :
    (t.write path content).1.fileAt? place = t.fileAt? place := by
  rw [fileAt?_write]
  split_ifs
  · exact Function.update_of_ne h _ _
  · rfl

/-- A file that its path finds is read the same after another one was written. -/
theorem read?_write_of_ne (hfinds : t.Finds other) (h : t.placeOf path ≠ t.placeOf other) :
    (t.write path content).1.read? other = t.read? other := by
  have hfile := fileAt?_write_of_ne content h.symm
  ext found
  rw [hfinds, read?_eq_some_iff, placeOf_write, hfile]
  constructor
  · exact fun ⟨_, _, hfound⟩ => hfound
  · intro hfound
    obtain ⟨hlocate, hforFile, -⟩ := read?_eq_some_iff.mp (hfinds.trans hfound)
    exact ⟨locate?_mono (fun _ => isDirectory_write content) (workingDirectory_write _ _ _) hlocate,
      hforFile, hfound⟩

/-- Whether one file can be written does not depend on whether another one was. -/
theorem canWrite_write_iff (h : t.Apart path other) :
    (t.write path content).1.CanWrite other ↔ t.CanWrite other := by
  have hfree : (∀ p ∈ t.passed other, (t.write path content).1.fileAt? p = none) ↔
      ∀ p ∈ t.passed other, t.fileAt? p = none :=
    forall₂_congr fun p hp => by
      rw [fileAt?_write_of_ne content fun heq => h.notPassed (heq ▸ hp)]
  have hdirectory := isDirectory_write_eq content h.ne.symm h.notPassed'
  rw [canWrite_iff, canWrite_iff, placeOf_write, passed_write, hfree, hdirectory]

end

end SampleTypes.Files.Tree
