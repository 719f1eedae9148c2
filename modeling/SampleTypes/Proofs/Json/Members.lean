import Mathlib.Data.List.Nodup
import Mathlib.Data.List.Perm.Basic
import SampleTypes.Json.Basic

/-! Members of an object under changes of single keys. The order of what is left is not always
kept, so removing a key is described up to a permutation. -/
namespace SampleTypes.Members

/-- A new key goes behind all others. -/
lemma insert_of_notMem {key : String} {members : Members} (h : key ∉ members.keys)
    (value : Json) : members.insert key value = members ++ [(key, value)] := by
  induction members with
  | nil => rfl
  | cons m members ih =>
    obtain ⟨k, v⟩ := m
    simp only [keys_cons, List.mem_cons, not_or] at h
    simp [insert, Ne.symm h.1, ih h.2]

lemma filter_ne_of_notMem {key : String} {ms : Members} (h : key ∉ ms.keys) :
    ms.filter (·.1 ≠ key) = ms := by
  rw [List.filter_eq_self]
  intro m hm
  have hne : m.1 ≠ key := by
    rintro rfl
    exact h (List.mem_map_of_mem hm)
  simpa using hne

/-- Removing a key leaves the other members, the last of them perhaps in its place. -/
lemma swapErase_perm {ms : Members} (h : ms.keys.Nodup) (key : String) :
    (ms.swapErase key).Perm (ms.filter (·.1 ≠ key)) := by
  by_cases hkey : key ∈ ms.keys
  · obtain ⟨m, hm, rfl⟩ := List.mem_map.mp hkey
    obtain ⟨a, b, rfl⟩ := List.append_of_mem hm
    simp only [keys, List.map_append, List.map_cons, List.nodup_append, List.nodup_cons] at h
    obtain ⟨-, ⟨hb, -⟩, hdisjoint⟩ := h
    have ha : m.1 ∉ keys a := fun hma => hdisjoint m.1 hma m.1 (by simp) rfl
    have hfind : (a ++ m :: b).findIdx? (·.1 == m.1) = some a.length := by
      have hnone : a.findIdx? (·.1 == m.1) = none := by
        rw [List.findIdx?_eq_none_iff]
        intro x hx
        have hne : x.1 ≠ m.1 := fun hxm => ha (hxm ▸ List.mem_map_of_mem hx)
        simpa using hne
      simp [List.findIdx?_append, hnone, List.findIdx?_cons]
    have hfilter : (a ++ m :: b).filter (·.1 ≠ m.1) = a ++ b := by
      rw [List.filter_append, List.filter_cons_of_neg (by simp), filter_ne_of_notMem ha,
        filter_ne_of_notMem hb]
    rw [hfilter]
    rcases List.eq_nil_or_concat' b with rfl | ⟨b, last, rfl⟩
    · simp [swapErase, hfind]
    · have hlast : (a ++ m :: (b ++ [last])).getLast? = some last := by
        rw [← List.cons_append, ← List.append_assoc, List.getLast?_concat]
      have hset : (a ++ m :: (b ++ [last])).set a.length last = (a ++ last :: b) ++ [last] := by
        simp
      simp only [swapErase, hfind, hlast, hset, List.dropLast_concat]
      exact List.Perm.append_left a (List.perm_append_singleton last b).symm
  · have hnone : ms.findIdx? (·.1 == key) = none := by
      rw [List.findIdx?_eq_none_iff]
      intro m hm
      have hne : m.1 ≠ key := fun hmk => hkey (hmk ▸ List.mem_map_of_mem hm)
      simpa using hne
    rw [filter_ne_of_notMem hkey, swapErase, hnone]

/-- Removing several keys leaves the members under all others. -/
lemma foldl_swapErase_perm (keys : List String) {ms : Members} (h : ms.keys.Nodup) :
    (keys.foldl swapErase ms).Perm (ms.filter (·.1 ∉ keys)) := by
  induction keys generalizing ms with
  | nil => simp
  | cons key keys ih =>
    have hperm := swapErase_perm h key
    have hnodup : (Members.keys (ms.swapErase key)).Nodup := by
      refine (hperm.map _).nodup_iff.mpr ?_
      exact h.sublist (List.filter_sublist.map _)
    refine (ih hnodup).trans ((hperm.filter _).trans ?_)
    rw [List.filter_filter]
    simp [Bool.and_comm]

end SampleTypes.Members
