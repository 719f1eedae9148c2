import Mathlib.Data.List.Lex
import Mathlib.Tactic.Common
import SampleTypes.Proofs.Schema

/-! Ways to definitions. A definition of an outline is reached by going from fields to what they
refer to, and definitions are listed in the lexicographic order of the ways to them. -/
namespace SampleTypes

open FieldType

lemma Schema.nested?_eq_some_iff {scope : NameScope} {enclosing name : String} {m : String × Json}
    {o : Members} : nested? scope enclosing m = some (name, o) ↔
      (ofMember scope enclosing m.1 m.2).recordName? = some name ∧ m.2.sampleObject? = some o := by
  rw [nested?]
  cases (ofMember scope enclosing m.1 m.2).recordName? with
  | none => simp
  | some n =>
    cases m.2.sampleObject? with
    | none => simp
    | some object => simp

/-- What holds of a definition if it holds of those that its fields refer to holds of all. -/
lemma nested_induct (scope : NameScope) {motive : String × Members → Prop}
    (step : ∀ d : String × Members,
      (∀ m ∈ d.2, ∀ d', Schema.nested? scope d.1 m = some d' → motive d') → motive d)
    (d : String × Members) : motive d := by
  have hbehind : ∀ (v : Json) (o : Members), v.sampleObject? = some o →
      ∀ name, motive (name, o) := by
    intro v
    induction v with
    | object members ih =>
      intro o ho name
      rw [← Option.some.inj ho]
      refine step (name, members) ?_
      rintro m hm ⟨name', o'⟩ hnested
      exact ih m hm o' (Schema.nested?_eq_some_iff.mp hnested).2 name'
    | array items ih =>
      cases items with
      | nil => intro o ho; contradiction
      | cons item items => exact ih item List.mem_cons_self
    | _ => intro o ho; contradiction
  exact hbehind (.object d.2) d.2 rfl d.1

/-- What the fields of a defined object refer to is defined. -/
lemma mem_definedObjects_of_nested {scope : NameScope} {d d' d'' : String × Members}
    (h : d' ∈ definedObjects scope d.1 d.2)
    (hnested : d'' ∈ d'.2.filterMap (Schema.nested? scope d'.1)) :
    d'' ∈ definedObjects scope d.1 d.2 := by
  induction d using nested_induct scope with
  | step d ih =>
    rw [definedObjects_eq] at h ⊢
    rcases List.mem_cons.mp h with rfl | h
    · refine List.mem_cons_of_mem _ (List.mem_flatMap.mpr ⟨d'', hnested, ?_⟩)
      exact List.mem_cons_self
    · obtain ⟨c, hc, hd'⟩ := List.mem_flatMap.mp h
      obtain ⟨m, hm, hreferred⟩ := List.mem_filterMap.mp hc
      exact List.mem_cons_of_mem _ (List.mem_flatMap.mpr ⟨c, hc, ih m hm c hreferred hd'⟩)

/-- The definition that a field of one refers to, by the number of the field. -/
def referred? (scope : NameScope) (d : String × Members) (k : Nat) : Option (String × Members) :=
  d.2[k]?.bind (Schema.nested? scope d.1)

/-- The definition that is reached by going from fields to what they refer to. -/
def definitionAt? (scope : NameScope) (d : String × Members) : List Nat → Option (String × Members)
  | [] => some d
  | k :: path => (referred? scope d k).bind fun d' => definitionAt? scope d' path

/-- The ways to all definitions, in the order in which these are listed. -/
structure IsIndex (scope : NameScope) (d : String × Members) (paths : List (List Nat)) : Prop where
  sorted : paths.Pairwise (· < ·)
  found : paths.map (definitionAt? scope d) = (definedObjects scope d.1 d.2).map some
  complete : ∀ path, (definitionAt? scope d path).isSome → path ∈ paths

section Paths

variable {scope : NameScope} {d : String × Members}

lemma definitionAt?_concat (path : List Nat) (k : Nat) :
    definitionAt? scope d (path ++ [k]) =
      (definitionAt? scope d path).bind fun d' => referred? scope d' k := by
  induction path generalizing d with
  | nil => simp [definitionAt?]
  | cons j path ih => simp only [List.cons_append, definitionAt?, ih, Option.bind_assoc]

/-- The ways through one field, if the ways from the definition that it refers to are known. -/
def branch (scope : NameScope) (d : String × Members) (below : String × Members → List (List Nat))
    (k : Nat) : List (List Nat) :=
  (referred? scope d k).toList.flatMap fun d' => (below d').map (k :: ·)

section Branch

variable {below : String × Members → List (List Nat)}

lemma mem_branch {k : Nat} {path : List Nat} : path ∈ branch scope d below k ↔
    ∃ d', referred? scope d k = some d' ∧ ∃ rest ∈ below d', k :: rest = path := by
  simp [branch]

variable (hbelow : ∀ k d', referred? scope d k = some d' → IsIndex scope d' (below d'))

include hbelow

lemma sorted_branch (k : Nat) : (branch scope d below k).Pairwise (· < ·) := by
  rw [branch]
  cases hd : referred? scope d k with
  | none => exact List.Pairwise.nil
  | some d' =>
    simp only [Option.toList_some, List.flatMap_singleton, List.pairwise_map]
    exact (hbelow k d' hd).sorted.imp fun h => List.cons_lt_cons_iff.mpr (Or.inr ⟨rfl, h⟩)

lemma map_definitionAt?_branch (k : Nat) : (branch scope d below k).map (definitionAt? scope d) =
    (referred? scope d k).toList.flatMap fun d' => (definedObjects scope d'.1 d'.2).map some := by
  rw [branch]
  cases hd : referred? scope d k with
  | none => rfl
  | some d' =>
    simp only [Option.toList_some, List.flatMap_singleton, List.map_map]
    rw [← (hbelow k d' hd).found]
    refine List.map_congr_left fun path _ => ?_
    simp only [Function.comp_apply, definitionAt?, hd, Option.bind_some]

end Branch

/-- Going through the numbers of a list is going through its members. -/
lemma flatMap_range_getElem? {α β γ : Type} (l : List α) (f : α → Option β) (g : β → List γ) :
    ((List.range l.length).flatMap fun k => (l[k]?.bind f).toList.flatMap g) =
      (l.filterMap f).flatMap g := by
  have hrange : (List.range l.length).map (l[·]?) = l.map some := by
    refine List.ext_getElem (by simp) fun k hk _ => ?_
    have hk : k < l.length := by simpa using hk
    simp [hk]
  have hmap : ((List.range l.length).map (l[·]?)).flatMap (fun x => (x.bind f).toList.flatMap g) =
      (l.filterMap f).flatMap g := by
    rw [hrange, List.flatMap_map, List.filterMap_eq_flatMap_toList, List.flatMap_assoc]
    rfl
  rw [← hmap, List.flatMap_map]

lemma isIndex_branches {below : String × Members → List (List Nat)}
    (hbelow : ∀ k d', referred? scope d k = some d' → IsIndex scope d' (below d')) :
    IsIndex scope d ([] :: (List.range d.2.length).flatMap (branch scope d below)) := by
  refine ⟨?_, ?_, ?_⟩
  · refine List.pairwise_cons.mpr ⟨?_, List.pairwise_flatMap.mpr ⟨?_, ?_⟩⟩
    · intro path hpath
      obtain ⟨k, -, hk⟩ := List.mem_flatMap.mp hpath
      obtain ⟨d', -, rest, -, rfl⟩ := mem_branch.mp hk
      exact List.nil_lt_cons k rest
    · exact fun k _ => sorted_branch hbelow k
    · refine List.pairwise_lt_range.imp ?_
      intro j k hjk p hp q hq
      obtain ⟨_, -, p, -, rfl⟩ := mem_branch.mp hp
      obtain ⟨_, -, q, -, rfl⟩ := mem_branch.mp hq
      exact List.cons_lt_cons_iff.mpr (Or.inl hjk)
  · have hfields := flatMap_range_getElem? d.2 (Schema.nested? scope d.1) fun d' =>
      (definedObjects scope d'.1 d'.2).map some
    rw [definedObjects_eq, List.map_cons, List.map_cons, List.map_flatMap, List.map_flatMap,
      ← hfields]
    simp only [map_definitionAt?_branch hbelow]
    rfl
  · intro path hpath
    cases path with
    | nil => exact List.mem_cons_self
    | cons k rest =>
      rw [definitionAt?, Option.isSome_iff_exists] at hpath
      obtain ⟨_, hpath⟩ := hpath
      obtain ⟨d', hd, hrest⟩ := Option.bind_eq_some_iff.mp hpath
      obtain ⟨m, hm, -⟩ := Option.bind_eq_some_iff.mp hd
      have hk : k < d.2.length := (List.getElem?_eq_some_iff.mp hm).1
      have hmem := (hbelow k d' hd).complete rest (by rw [hrest]; rfl)
      exact List.mem_cons_of_mem _ (List.mem_flatMap.mpr
        ⟨k, List.mem_range.mpr hk, mem_branch.mpr ⟨d', hd, rest, hmem, rfl⟩⟩)

lemma exists_isIndex (scope : NameScope) (d : String × Members) :
    ∃ paths, IsIndex scope d paths := by
  induction d using nested_induct scope with
  | step d ih =>
    have hreferred : ∀ d', (∃ k, referred? scope d k = some d') →
        ∃ paths, IsIndex scope d' paths := by
      rintro d' ⟨k, hk⟩
      obtain ⟨m, hm, hnested⟩ := Option.bind_eq_some_iff.mp hk
      exact ih m (List.mem_of_getElem? hm) d' hnested
    choose! below hbelow using hreferred
    exact ⟨_, isIndex_branches fun k d' hk => hbelow d' ⟨k, hk⟩⟩

end Paths

namespace IsIndex

variable {scope : NameScope} {d : String × Members} {paths : List (List Nat)}

lemma nodup (h : IsIndex scope d paths) : paths.Nodup :=
  h.sorted.imp fun {a b} (hlt : a < b) (heq : a = b) => List.lt_irrefl b (heq ▸ hlt)

lemma length_eq (h : IsIndex scope d paths) :
    paths.length = (definedObjects scope d.1 d.2).length := by
  simpa using congrArg List.length h.found

lemma definitionAt?_getElem (h : IsIndex scope d paths) {i : Nat} (hi : i < paths.length) :
    definitionAt? scope d paths[i] = (definedObjects scope d.1 d.2)[i]? := by
  have hget := congrArg (·[i]?) h.found
  have hlength : i < (definedObjects scope d.1 d.2).length := h.length_eq ▸ hi
  simpa [hi, hlength] using hget

lemma mem_iff (h : IsIndex scope d paths) {path : List Nat} :
    path ∈ paths ↔ (definitionAt? scope d path).isSome := by
  refine ⟨fun hpath => ?_, h.complete path⟩
  have hmem : definitionAt? scope d path ∈ (definedObjects scope d.1 d.2).map some :=
    h.found ▸ List.mem_map_of_mem hpath
  obtain ⟨d', -, hd'⟩ := List.mem_map.mp hmem
  rw [← hd']
  rfl

lemma lt_getElem (h : IsIndex scope d paths) {i j : Nat} (hi : i < paths.length)
    (hj : j < paths.length) (hij : i < j) : paths[i] < paths[j] :=
  List.pairwise_iff_getElem.mp h.sorted i j hi hj hij

/-- The empty way leads to the root, which is listed first. -/
lemma getElem_eq_nil_iff (h : IsIndex scope d paths) {i : Nat} (hi : i < paths.length) :
    paths[i] = [] ↔ i = 0 := by
  have hzero : ∀ j (hj : j < paths.length), paths[j] = [] → j = 0 := by
    intro j hj hnil
    by_contra hpos
    have hfirst := h.lt_getElem (i := 0) (by omega) hj (by omega)
    rw [hnil] at hfirst
    exact List.not_lt_nil _ hfirst
  refine ⟨hzero i hi, ?_⟩
  rintro rfl
  obtain ⟨j, hj, hnil⟩ := List.getElem_of_mem (h.complete [] rfl)
  obtain rfl := hzero j hj hnil
  exact hnil

/-- The way to a definition other than the root ends in a step from one that is listed before it. -/
lemma exists_parent (h : IsIndex scope d paths) {i : Nat} (hi : i < paths.length) (hpos : 0 < i) :
    ∃ j k, ∃ hj : j < paths.length, j < i ∧ paths[i] = paths[j] ++ [k] := by
  have hne : paths[i] ≠ [] := by
    rw [ne_eq, h.getElem_eq_nil_iff]
    omega
  obtain ⟨path, k, hpath⟩ := (List.eq_nil_or_concat' paths[i]).resolve_left hne
  have hmem : path ∈ paths := by
    have hfull := h.mem_iff.mp (List.getElem_mem hi)
    rw [hpath, definitionAt?_concat] at hfull
    exact h.mem_iff.mpr (Option.isSome_of_isSome_bind hfull)
  obtain ⟨j, hj, rfl⟩ := List.getElem_of_mem hmem
  refine ⟨j, k, hj, ?_, hpath⟩
  by_contra hle
  rcases Nat.eq_or_lt_of_le (Nat.not_lt.mp hle) with rfl | hafter
  · simp at hpath
  · have hbelow := h.lt_getElem hi hj hafter
    rw [hpath] at hbelow
    exact List.le_append_left hbelow

end IsIndex

end SampleTypes
