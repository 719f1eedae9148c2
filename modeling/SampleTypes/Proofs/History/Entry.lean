import SampleTypes.History.Entry
import SampleTypes.Proofs.Json.Members
import SampleTypes.Proofs.Json.Reader

/-! Histories as text. A list of entries is read back from the text it is kept as, provided that
every attribute of an entry leaves room for the two levels of nesting around it. -/
namespace SampleTypes.History

open Json

namespace Entry

/-- An entry that its text spells in full: 64 bits for the time, attributes under keys of their own,
and in them whole numbers and the nesting that a list of entries leaves. -/
structure IsStorable (e : Entry) : Prop where
  time : FitsSigned e.time
  keys : e.extra.keys.Nodup
  own : ∀ key ∈ ownKeys, key ∉ e.extra.keys
  whole : ∀ m ∈ e.extra, m.2.IsWhole
  distinct : ∀ m ∈ e.extra, m.2.HasDistinctKeys
  depth : ∀ m ∈ e.extra, m.2.depth ≤ 125

/-- An entry that its text spells in full, as long as the nesting suffices. -/
structure IsSound (e : Entry) : Prop where
  time : FitsSigned e.time
  keys : e.extra.keys.Nodup
  own : ∀ key ∈ ownKeys, key ∉ e.extra.keys
  whole : ∀ m ∈ e.extra, m.2.IsWhole
  distinct : ∀ m ∈ e.extra, m.2.HasDistinctKeys

variable {e : Entry}

lemma IsStorable.isSound (h : e.IsStorable) : e.IsSound :=
  ⟨h.time, h.keys, h.own, h.whole, h.distinct⟩

lemma IsSound.isStorable (h : e.IsSound) (hdepth : ∀ m ∈ e.extra, m.2.depth ≤ 125) :
    e.IsStorable :=
  ⟨h.time, h.keys, h.own, h.whole, h.distinct, hdepth⟩

lemma IsSound.isWhole_toJson (h : e.IsSound) : e.toJson.IsWhole := by
  have hword : (Number.int e.time).IsWord := by
    obtain ⟨hlow, hhigh⟩ := h.time
    exact ⟨hlow, by omega⟩
  simp only [toJson, members, IsWhole, all_object, List.cons_append, List.nil_append,
    List.forall_mem_cons, all_string, all_number, true_and]
  exact ⟨hword, h.whole⟩

/-- An entry is one level around its attributes. -/
lemma depth_toJson_le_iff (e : Entry) (d : Nat) :
    e.toJson.depth ≤ d + 1 ↔ ∀ m ∈ e.extra, m.2.depth ≤ d := by
  rw [toJson, depth_object_le_iff]
  simp only [members, List.cons_append, List.nil_append, List.forall_mem_cons, Json.depth,
    Nat.zero_le, true_and]

lemma filter_key_eq_nil {key : String} {members : Members} (h : key ∉ members.keys) :
    members.filter (·.1 = key) = [] := by
  rw [List.filter_eq_nil_iff]
  intro m hm hkey
  exact h (List.mem_map.mpr ⟨m, hm, by simpa using hkey⟩)

/-- No attribute stands in the way of an own field. -/
lemma IsSound.only?_members (h : e.IsSound) :
    only? e.members "module" = some (.string e.feature) ∧
      only? e.members "input" = some (.string e.input) ∧
      only? e.members "time" = some (.number (.int e.time)) := by
  have hmodule := filter_key_eq_nil (h.own "module" (by decide))
  have hinput := filter_key_eq_nil (h.own "input" (by decide))
  have htime := filter_key_eq_nil (h.own "time" (by decide))
  refine ⟨?_, ?_, ?_⟩
  · simp [only?, members, hmodule]
  · simp [only?, members, hinput]
  · simp [only?, members, htime]

/-- The attributes are all that an entry spells beside its own fields. -/
lemma IsSound.filter_members (h : e.IsSound) :
    e.members.filter (fun (key, _) => key ∉ ownKeys) = e.extra := by
  have hextra : e.extra.filter (fun (key, _) => key ∉ ownKeys) = e.extra := by
    rw [List.filter_eq_self]
    intro m hm
    have hkey : m.1 ∉ ownKeys := fun hown => h.own m.1 hown (List.mem_map_of_mem hm)
    simpa using hkey
  rw [members, List.filter_append, hextra]
  simp [ownKeys]

/-- An entry is read back from the object that spells it. -/
theorem IsSound.ofJson?_toJson (h : e.IsSound) : ofJson? e.toJson = some e := by
  obtain ⟨hmodule, hinput, htime⟩ := h.only?_members
  have hextra : mergedMembers [] e.extra = e.extra := by
    rw [mergedMembers_eq_append [] e.extra (by simpa using h.keys)
      (fun m hm => merged_eq_self (h.distinct m hm)), List.nil_append]
  simp only [toJson, ofJson?, hmodule, hinput, htime, if_pos h.time, h.filter_members, hextra]

/-- Attributes under other keys than those of an entry's own fields leave room for the two levels of
nesting around them. -/
def FitsExtra (extra : Members) : Prop := ∀ m ∈ extra, m.1 ∉ ownKeys → m.2.depth ≤ 125

section Create

variable {now : Int} {extra : Members} (hnow : FitsSigned now) (hwhole : (object extra).IsWhole)
  (hdistinct : (object extra).HasDistinctKeys) (feature input : String)

lemma mem_extra_create (hkeys : extra.keys.Nodup) {m : String × Json} :
    m ∈ (create now feature input extra).extra ↔ m ∈ extra ∧ m.1 ∉ ownKeys := by
  rw [create, (Members.foldl_swapErase_perm ownKeys hkeys).mem_iff, List.mem_filter,
    decide_eq_true_eq]

include hnow hwhole hdistinct

lemma isSound_create : (create now feature input extra).IsSound := by
  obtain ⟨hkeys, hvalues⟩ := (all_object _ _).mp hdistinct
  have hmem : ∀ m ∈ (create now feature input extra).extra, m ∈ extra ∧ m.1 ∉ ownKeys :=
    fun m hm => (mem_extra_create feature input hkeys).mp hm
  refine ⟨hnow, ?_, ?_, ?_, fun m hm => hvalues m (hmem m hm).1⟩
  · have hperm := (Members.foldl_swapErase_perm ownKeys hkeys).map Prod.fst
    exact hperm.nodup_iff.mpr (List.Nodup.sublist (List.filter_sublist.map _) hkeys)
  · intro key hown hkey
    obtain ⟨m, hm, rfl⟩ := List.mem_map.mp hkey
    exact (hmem m hm).2 hown
  · exact fun m hm => ((all_object _ _).mp hwhole).2 m (hmem m hm).1

lemma isStorable_create (hfits : FitsExtra extra) :
    (create now feature input extra).IsStorable := by
  have hkeys := ((all_object _ _).mp hdistinct).1
  refine (isSound_create hnow hwhole hdistinct feature input).isStorable fun m hm => ?_
  obtain ⟨hm, hown⟩ := (mem_extra_create feature input hkeys).mp hm
  exact hfits m hm hown

omit hnow hwhole in
lemma lt_depth_toJson_create (hfits : ¬FitsExtra extra) :
    126 < (create now feature input extra).toJson.depth := by
  have hkeys := ((all_object _ _).mp hdistinct).1
  rw [← Nat.not_le, depth_toJson_le_iff]
  intro hdepth
  exact hfits fun m hm hown => hdepth m ((mem_extra_create feature input hkeys).mpr ⟨hm, hown⟩)

end Create

end Entry

lemma mapM_ofJson?_map {es : List Entry} (h : ∀ e ∈ es, e.IsStorable) :
    (es.map Entry.toJson).mapM Entry.ofJson? = some es := by
  induction es with
  | nil => rfl
  | cons e es ih =>
    obtain ⟨he, hes⟩ := List.forall_mem_cons.mp h
    rw [List.map_cons, List.mapM_cons, he.isSound.ofJson?_toJson, ih hes]
    rfl

/-- The text of a history never counts as blank. -/
lemma isBlankText_encode (es : List Entry) : Text.isBlankText (encode es) = false := by
  have hfirst : ∃ tail, (encode es).toList = '[' :: tail :=
    ⟨_, by rw [encode, Json.text, String.toList_append, String.toList_append]; rfl⟩
  obtain ⟨tail, htail⟩ := hfirst
  rw [Text.isBlankText, htail]
  rfl

lemma isWhole_list {es : List Entry} (h : ∀ e ∈ es, e.toJson.IsWhole) :
    (Json.array (es.map Entry.toJson)).IsWhole :=
  (all_array _ _).mpr ⟨trivial, List.forall_mem_map.mpr h⟩

lemma read?_encode {es : List Entry} (h : ∀ e ∈ es, e.IsStorable) :
    read? (encode es) = some (.array (es.map Entry.toJson)) := by
  have hdepth : (Json.array (es.map Entry.toJson)).depth ≤ 126 + 1 := by
    rw [depth_array_le_iff]
    exact List.forall_mem_map.mpr fun e he => (Entry.depth_toJson_le_iff e 125).mpr (h e he).depth
  exact read?_text (isWhole_list fun e he => (h e he).isSound.isWhole_toJson) hdepth

/-- A history is read back from its own text. -/
theorem decode_encode {es : List Entry} (h : ∀ e ∈ es, e.IsStorable) : decode (encode es) = es := by
  rw [decode, if_neg (by simp [isBlankText_encode]), read?_encode h]
  simp only [mapM_ofJson?_map h, Option.getD_some]

end SampleTypes.History
