import SampleTypes.Json.Basic
import SampleTypes.Proofs.Json.Members
import SampleTypes.Proofs.Json.Number

/-! Values as trees: induction over them, properties of every part of a value, and nesting. A value
whose objects hold each key once denotes itself. -/
namespace SampleTypes

namespace Json

/-- Induction over a value, with the hypothesis for every item and every member at once. -/
@[elab_as_elim, induction_eliminator]
theorem induct {motive : Json → Prop} (null : motive .null) (bool : ∀ b, motive (.bool b))
    (number : ∀ n, motive (.number n)) (string : ∀ s, motive (.string s))
    (array : ∀ items : List Json, (∀ item ∈ items, motive item) → motive (.array items))
    (object : ∀ members : Members, (∀ m ∈ members, motive m.2) → motive (.object members))
    (v : Json) : motive v := by
  apply @Json.rec motive (fun items => ∀ item ∈ items, motive item)
    (fun members => ∀ m ∈ members, motive m.2) (fun m => motive m.2)
  · exact null
  · exact bool
  · exact number
  · exact string
  · exact array
  · exact object
  · simp
  · intro item items hitem hitems
    exact List.forall_mem_cons.mpr ⟨hitem, hitems⟩
  · simp
  · intro m members hm hmembers
    exact List.forall_mem_cons.mpr ⟨hm, hmembers⟩
  · intro key value hvalue
    exact hvalue

mutual

/-- Whether `p` holds of a value and of every value in it. -/
def All (p : Json → Prop) : Json → Prop
  | .array items => p (.array items) ∧ AllItems p items
  | .object members => p (.object members) ∧ AllMembers p members
  | scalar => p scalar

def AllItems (p : Json → Prop) : List Json → Prop
  | [] => True
  | item :: items => item.All p ∧ AllItems p items

def AllMembers (p : Json → Prop) : List (String × Json) → Prop
  | [] => True
  | (_, value) :: members => value.All p ∧ AllMembers p members

end

lemma allItems_iff (p : Json → Prop) (items : List Json) :
    AllItems p items ↔ ∀ item ∈ items, item.All p := by
  induction items with
  | nil => simp [AllItems]
  | cons item items ih => simp [AllItems, ih]

lemma allMembers_iff (p : Json → Prop) (members : Members) :
    AllMembers p members ↔ ∀ m ∈ members, m.2.All p := by
  induction members with
  | nil => simp [AllMembers]
  | cons m members ih => obtain ⟨key, value⟩ := m; simp [AllMembers, ih]

@[simp] lemma all_array (p : Json → Prop) (items : List Json) :
    (array items).All p ↔ p (array items) ∧ ∀ item ∈ items, item.All p := by
  rw [All, allItems_iff]

@[simp] lemma all_object (p : Json → Prop) (members : Members) :
    (object members).All p ↔ p (object members) ∧ ∀ m ∈ members, m.2.All p := by
  rw [All, allMembers_iff]

@[simp] lemma all_null (p : Json → Prop) : null.All p ↔ p null := Iff.rfl
@[simp] lemma all_bool (p : Json → Prop) (b : Bool) : (bool b).All p ↔ p (bool b) := Iff.rfl
@[simp] lemma all_number (p : Json → Prop) (n : Number) :
    (number n).All p ↔ p (number n) := Iff.rfl
@[simp] lemma all_string (p : Json → Prop) (s : String) :
    (string s).All p ↔ p (string s) := Iff.rfl

/-- Every number in a value is a whole number of 64 bits. -/
def IsWhole (v : Json) : Prop :=
  v.All fun
    | .number n => n.IsWord
    | _ => True

/-- No object in a value holds a key twice. -/
def HasDistinctKeys (v : Json) : Prop :=
  v.All fun
    | .object members => (Members.keys members).Nodup
    | _ => True

mutual

/-- How many arrays and objects stand in each other. -/
def depth : Json → Nat
  | .array items => itemsDepth items + 1
  | .object members => membersDepth members + 1
  | _ => 0

def itemsDepth : List Json → Nat
  | [] => 0
  | item :: items => max item.depth (itemsDepth items)

def membersDepth : List (String × Json) → Nat
  | [] => 0
  | (_, value) :: members => max value.depth (membersDepth members)

end

lemma itemsDepth_le_iff (items : List Json) (d : Nat) :
    itemsDepth items ≤ d ↔ ∀ item ∈ items, item.depth ≤ d := by
  induction items with
  | nil => simp [itemsDepth]
  | cons item items ih => rw [itemsDepth, Nat.max_le, ih, List.forall_mem_cons]

lemma membersDepth_le_iff (members : Members) (d : Nat) :
    membersDepth members ≤ d ↔ ∀ m ∈ members, m.2.depth ≤ d := by
  induction members with
  | nil => simp [membersDepth]
  | cons m members ih =>
    obtain ⟨key, value⟩ := m
    rw [membersDepth, Nat.max_le, ih, List.forall_mem_cons]

@[simp] lemma depth_array_le_iff (items : List Json) (d : Nat) :
    (array items).depth ≤ d + 1 ↔ ∀ item ∈ items, item.depth ≤ d := by
  rw [depth, Nat.add_le_add_iff_right, itemsDepth_le_iff]

@[simp] lemma depth_object_le_iff (members : Members) (d : Nat) :
    (object members).depth ≤ d + 1 ↔ ∀ m ∈ members, m.2.depth ≤ d := by
  rw [depth, Nat.add_le_add_iff_right, membersDepth_le_iff]

/-- A bound on the nesting of a list leaves one level less for each item. -/
lemma exists_depth_of_array {items : List Json} {d : Nat} (h : (array items).depth ≤ d) :
    ∃ k, d = k + 1 ∧ ∀ item ∈ items, item.depth ≤ k := by
  obtain ⟨k, rfl⟩ : ∃ k, d = k + 1 := ⟨d - 1, by simp only [depth] at h; omega⟩
  exact ⟨k, rfl, (depth_array_le_iff items k).mp h⟩

lemma exists_depth_of_object {members : Members} {d : Nat} (h : (object members).depth ≤ d) :
    ∃ k, d = k + 1 ∧ ∀ m ∈ members, m.2.depth ≤ k := by
  obtain ⟨k, rfl⟩ : ∃ k, d = k + 1 := ⟨d - 1, by simp only [depth] at h; omega⟩
  exact ⟨k, rfl, (depth_object_le_iff members k).mp h⟩

@[simp] lemma mergedItems_eq_map (items : List Json) : mergedItems items = items.map merged := by
  induction items with
  | nil => rfl
  | cons item items ih => simp [mergedItems, ih]

/-- Members with different keys are kept in their order. -/
lemma mergedMembers_eq_append (seen members : Members)
    (hkeys : (Members.keys (seen ++ members)).Nodup) (hvalues : ∀ m ∈ members, m.2.merged = m.2) :
    mergedMembers seen members = seen ++ members := by
  induction members generalizing seen with
  | nil => simp [mergedMembers]
  | cons m members ih =>
    obtain ⟨key, value⟩ := m
    obtain ⟨hvalue, hrest⟩ := List.forall_mem_cons.mp hvalues
    have hnew : key ∉ Members.keys seen := by
      intro h
      simp only [Members.keys, List.map_append, List.map_cons] at hkeys h
      exact (List.nodup_append.mp hkeys).2.2 key h key (by simp) rfl
    have happend : seen ++ (key, value) :: members = (seen ++ [(key, value)]) ++ members := by simp
    rw [mergedMembers, show value.merged = value from hvalue, Members.insert_of_notMem hnew,
      happend]
    exact ih _ (by rwa [← happend]) hrest

/-- A value that spells no key twice denotes itself. -/
theorem merged_eq_self {v : Json} (h : v.HasDistinctKeys) : v.merged = v := by
  induction v with
  | null => rfl
  | bool b => rfl
  | number n => rfl
  | string s => rfl
  | array items ih =>
    obtain ⟨-, hitems⟩ := (all_array _ _).mp h
    rw [merged, mergedItems_eq_map, List.map_congr_left fun item hi => ih item hi (hitems item hi),
      List.map_id']
  | object members ih =>
    obtain ⟨hkeys, hmembers⟩ := (all_object _ _).mp h
    rw [merged, mergedMembers_eq_append [] members (by simpa using hkeys)
      (fun m hm => ih m hm (hmembers m hm)), List.nil_append]

end Json

end SampleTypes
