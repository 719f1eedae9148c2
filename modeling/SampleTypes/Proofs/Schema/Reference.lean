import Mathlib.Algebra.Ring.Nat
import Mathlib.Data.Set.Function
import Mathlib.Order.Interval.Set.Basic
import SampleTypes.Proofs.Schema.Path

/-! Types that fields refer to, and their definitions. A type refers to a definition exactly where
there is an object behind the value, and every definition other than the root is that of one
field. -/
namespace SampleTypes

namespace FieldType

/-- How many lists stand around the innermost type. -/
def layers : FieldType → Nat
  | list element => element.layers + 1
  | _ => 0

lemma recordName?_ofItem (name : String) (v : Json) :
    (ofItem name v).recordName? = v.sampleObject?.map fun _ => name := by
  induction v with
  | object members => rfl
  | array items ih =>
    cases items with
    | nil => rfl
    | cons item items => exact ih item List.mem_cons_self
  | null => exact recordName?_ofScalar .null
  | bool b => exact recordName?_ofScalar (.bool b)
  | number n => exact recordName?_ofScalar (.number n)
  | string s => exact recordName?_ofScalar (.string s)

/-- The type of a member is that of an item, under a name that its place decides. -/
lemma exists_ofMember_eq_ofItem (scope : NameScope) (enclosing key : String) (v : Json) :
    ∃ name, ofMember scope enclosing key v = ofItem name v := by
  cases v with
  | object members => exact ⟨_, rfl⟩
  | array items => exact ⟨_, rfl⟩
  | _ => exact ⟨"", rfl⟩

end FieldType

namespace Json

/-- What stands inside so many arrays, as the first item of each. -/
def inside? : Nat → Json → Option Json
  | 0, v => some v
  | n + 1, array (item :: _) => inside? n item
  | _ + 1, _ => none

/-- The object behind a value stands inside as many arrays as the type of the value has lists. -/
lemma inside?_eq_some_object_iff (name : String) (v : Json) (n : Nat) (o : Members) :
    v.inside? n = some (object o) ↔
      v.sampleObject? = some o ∧ n = (FieldType.ofItem name v).layers := by
  induction v generalizing n with
  | object members => cases n <;> simp [inside?, sampleObject?, FieldType.ofItem, FieldType.layers]
  | array items ih =>
    cases items with
    | nil => cases n <;> simp [inside?, sampleObject?, firstObject?]
    | cons item items =>
      cases n with
      | zero => simp [inside?, FieldType.ofItem, FieldType.layers]
      | succ n =>
        have hitem := ih item List.mem_cons_self n
        simpa [inside?, sampleObject?, firstObject?, FieldType.ofItem, FieldType.ofItems,
          FieldType.layers] using hitem
  | _ => cases n <;> simp [inside?, sampleObject?]

mutual

/-- The objects at and below a value that are reached through members and first items. -/
def objects : Json → List Members
  | object members => members :: memberObjects members
  | array items => itemObjects items
  | _ => []

def itemObjects : List Json → List Members
  | [] => []
  | item :: _ => item.objects

def memberObjects : List (String × Json) → List Members
  | [] => []
  | (_, value) :: members => value.objects ++ memberObjects members

end

end Json

open Json FieldType

lemma FieldType.isSome_recordName?_ofMember (scope : NameScope)
    (enclosing key : String) (v : Json) :
    (ofMember scope enclosing key v).recordName?.isSome = v.sampleObject?.isSome := by
  obtain ⟨name, hname⟩ := exists_ofMember_eq_ofItem scope enclosing key v
  rw [hname, recordName?_ofItem, Option.isSome_map]

/-- The type of a member names exactly what it refers to. -/
lemma Schema.map_fst_nested? (scope : NameScope) (enclosing : String) (m : String × Json) :
    (nested? scope enclosing m).map Prod.fst =
      (ofMember scope enclosing m.1 m.2).recordName? := by
  have hsome := isSome_recordName?_ofMember scope enclosing m.1 m.2
  rw [nested?]
  cases hname : (ofMember scope enclosing m.1 m.2).recordName? with
  | none => rfl
  | some name =>
    rw [hname] at hsome
    obtain ⟨o, ho⟩ := Option.isSome_iff_exists.mp hsome.symm
    rw [ho]
    rfl

/-- A type that names a definition has its object in the value, inside as many arrays as it has
lists. -/
lemma Schema.exists_nested {scope : NameScope} {enclosing name : String} {m : String × Json}
    (h : (ofMember scope enclosing m.1 m.2).recordName? = some name) :
    ∃ o, nested? scope enclosing m = some (name, o) ∧
      m.2.inside? (ofMember scope enclosing m.1 m.2).layers = some (object o) := by
  have hsome := isSome_recordName?_ofMember scope enclosing m.1 m.2
  rw [h] at hsome
  obtain ⟨o, ho⟩ := Option.isSome_iff_exists.mp hsome.symm
  obtain ⟨itemName, hitem⟩ := exists_ofMember_eq_ofItem scope enclosing m.1 m.2
  refine ⟨o, Schema.nested?_eq_some_iff.mpr ⟨h, ho⟩, ?_⟩
  rw [hitem]
  exact (inside?_eq_some_object_iff itemName m.2 _ o).mpr ⟨ho, rfl⟩

/-- The objects of the defined types are those that are reached, in order. -/
lemma map_snd_definedAmong {scope : NameScope} (enclosing : String) {members : Members}
    (h : ∀ m ∈ members, ∀ name, (definedBehind scope name m.2).map Prod.snd = m.2.objects) :
    (definedAmong scope enclosing members).map Prod.snd = memberObjects members := by
  induction members with
  | nil => rfl
  | cons m members ih =>
    obtain ⟨key, value⟩ := m
    obtain ⟨hvalue, hmembers⟩ := List.forall_mem_cons.mp h
    obtain ⟨name, hname⟩ := exists_ofMember_eq_ofItem scope enclosing key value
    rw [definedAmong, memberObjects, List.map_append, ih hmembers, hname, recordName?_ofItem]
    congr 1
    cases hobject : value.sampleObject? with
    | some o => exact hvalue name
    | none =>
      rw [← hvalue name, definedBehind_eq, hobject]
      rfl

lemma map_snd_definedBehind (scope : NameScope) (name : String) (v : Json) :
    (definedBehind scope name v).map Prod.snd = v.objects := by
  induction v generalizing name with
  | object members ih =>
    rw [definedBehind, List.map_cons, map_snd_definedAmong name ih]
    rfl
  | array items ih =>
    cases items with
    | nil => rfl
    | cons item items => exact ih item List.mem_cons_self name
  | _ => rfl

/-- The definition that a field refers to, in a list of definitions. A place in the list is the
number of a definition and that of a field in it. -/
def reference? (scope : NameScope) (ds : List (String × Members)) (place : Nat × Nat) :
    Option (String × Members) :=
  ds[place.1]?.bind fun d => referred? scope d place.2

/-- The place of the field that a definition belongs to, as the way to the definition tells it. -/
def ownerIn (paths : List (List Nat)) (i : Nat) : Nat × Nat :=
  let path := paths[i]?.getD []
  (paths.idxOf path.dropLast, path.getLast?.getD 0)

namespace IsIndex

variable {scope : NameScope} {d : String × Members} {paths : List (List Nat)}

/-- The field at a place refers to what the way there and one more step lead to. -/
lemma reference?_eq (h : IsIndex scope d paths) {i : Nat} (hi : i < paths.length) (k : Nat) :
    reference? scope (definedObjects scope d.1 d.2) (i, k) =
      definitionAt? scope d (paths[i] ++ [k]) := by
  rw [definitionAt?_concat, h.definitionAt?_getElem hi]
  rfl

lemma ownerIn_eq (h : IsIndex scope d paths) {i j k : Nat} (hi : i < paths.length)
    (hj : j < paths.length) (hpath : paths[i] = paths[j] ++ [k]) : ownerIn paths i = (j, k) := by
  simp [ownerIn, hi, hpath, h.nodup.idxOf_getElem]

/-- Every definition other than the root has an owner in front of it. -/
lemma exists_owner (h : IsIndex scope d paths) {i : Nat}
    (hmem : i ∈ Set.Ioo 0 (definedObjects scope d.1 d.2).length) :
    ∃ j k, ∃ (hi : i < paths.length) (hj : j < paths.length),
      j < i ∧ paths[i] = paths[j] ++ [k] ∧ ownerIn paths i = (j, k) := by
  obtain ⟨hpos, hi⟩ := hmem
  rw [← h.length_eq] at hi
  obtain ⟨j, k, hj, hji, hpath⟩ := h.exists_parent hi hpos
  exact ⟨j, k, hi, hj, hji, hpath, h.ownerIn_eq hi hj hpath⟩

/-- And its owner refers to it. -/
lemma reference?_ownerIn (h : IsIndex scope d paths) {i : Nat}
    (hmem : i ∈ Set.Ioo 0 (definedObjects scope d.1 d.2).length) :
    reference? scope (definedObjects scope d.1 d.2) (ownerIn paths i) =
      (definedObjects scope d.1 d.2)[i]? := by
  obtain ⟨j, k, hi, hj, -, hpath, heq⟩ := h.exists_owner hmem
  rw [heq, h.reference?_eq hj, ← hpath, h.definitionAt?_getElem hi]

/-- Whatever refers to a definition owns one. -/
lemma exists_ownerIn_eq (h : IsIndex scope d paths) {j k : Nat}
    (hsome : (reference? scope (definedObjects scope d.1 d.2) (j, k)).isSome = true) :
    ∃ i ∈ Set.Ioo 0 (definedObjects scope d.1 d.2).length, ownerIn paths i = (j, k) := by
  have hj : j < paths.length := by
    obtain ⟨_, hdefined⟩ := Option.isSome_iff_exists.mp (Option.isSome_of_isSome_bind hsome)
    exact h.length_eq ▸ (List.getElem?_eq_some_iff.mp hdefined).1
  have hpath : paths[j] ++ [k] ∈ paths := by
    rw [h.mem_iff, ← h.reference?_eq hj]
    exact hsome
  obtain ⟨i, hi, hget⟩ := List.getElem_of_mem hpath
  have hpos : i ≠ 0 := by
    rw [ne_eq, ← h.getElem_eq_nil_iff hi, hget]
    simp
  exact ⟨i, ⟨Nat.pos_of_ne_zero hpos, h.length_eq ▸ hi⟩, h.ownerIn_eq hi hj hget⟩

/-- Every definition other than the root belongs to one field, and every field that refers to a
definition has one of its own, which stands behind it. -/
theorem bijOn_ownerIn (h : IsIndex scope d paths) :
    let ds := definedObjects scope d.1 d.2
    Set.BijOn (ownerIn paths) (Set.Ioo 0 ds.length)
        {place | (reference? scope ds place).isSome = true} ∧
      ∀ i ∈ Set.Ioo 0 ds.length,
        (ownerIn paths i).1 < i ∧ reference? scope ds (ownerIn paths i) = ds[i]? := by
  intro ds
  refine ⟨⟨?_, ?_, ?_⟩, fun i hmem => ⟨?_, h.reference?_ownerIn hmem⟩⟩
  · intro i hmem
    have hi : i < ds.length := hmem.2
    simp [ds, h.reference?_ownerIn hmem, hi]
  · intro i hmem i' hmem' heq
    obtain ⟨j, k, hi, hj, -, hpath, howns⟩ := h.exists_owner hmem
    obtain ⟨j', k', hi', hj', -, hpath', howns'⟩ := h.exists_owner hmem'
    obtain ⟨rfl, rfl⟩ := Prod.mk.inj (howns.symm.trans (heq.trans howns'))
    exact h.nodup.getElem_inj_iff.mp (hpath.trans hpath'.symm)
  · rintro ⟨j, k⟩ hsome
    exact h.exists_ownerIn_eq hsome
  · obtain ⟨j, k, -, -, hji, -, heq⟩ := h.exists_owner hmem
    rw [heq]
    exact hji

end IsIndex

/-- The field at a place, the number of a schema and of a field in it. -/
def fieldAt? (schemas : List Schema) (place : Nat × Nat) : Option Field :=
  schemas[place.1]?.bind (·.fields[place.2]?)

/-- Fields refer to definitions as their types tell. -/
lemma recordName?_fieldAt? (scope : NameScope) (ds : List (String × Members)) (place : Nat × Nat) :
    ((fieldAt? (ds.map fun d => Schema.ofMembers scope d.1 d.2) place).bind (·.type.recordName?)) =
      (reference? scope ds place).map Prod.fst := by
  rw [fieldAt?, reference?, List.getElem?_map]
  cases ds[place.1]? with
  | none => rfl
  | some d =>
    simp only [Option.map_some, Option.bind_some, Schema.ofMembers, List.getElem?_map, referred?]
    cases d.2[place.2]? with
    | none => rfl
    | some m => exact (Schema.map_fst_nested? scope d.1 m).symm

lemma length_memberObjects (members : Members) :
    (memberObjects members).length = (members.map fun m => m.2.objects.length).sum := by
  induction members with
  | nil => rfl
  | cons m members ih =>
    obtain ⟨key, value⟩ := m
    rw [memberObjects, List.length_append, ih, List.map_cons, List.sum_cons]

/-- The type of a field refers to a definition if and only if there is an object behind the value,
inside as many arrays as the type has lists, and then it is this object that is defined under the
name. So in the list of definitions every one but the root belongs to one field, every field that
refers to a definition has one further down with the name and the object that it refers to, and
there are as many as objects that are reached through members and first items. -/
theorem references_are_defined (scope : NameScope) (name : String) (members : Members) :
    let ds := definedObjects scope name members
    let schemas := (Outline.ofObject scope name members).schemas
    (∀ (k : Nat) (m : String × Json), members[k]? = some m → ∃ type : FieldType,
      (Schema.ofMembers scope name members).fields[k]? = some ⟨m.1, type⟩ ∧
        (type.recordName?.isSome ↔ m.2.sampleObject?.isSome) ∧
        (∀ n o, m.2.inside? n = some (object o) ↔ m.2.sampleObject? = some o ∧ n = type.layers) ∧
        ∀ record o, Schema.nested? scope name m = some (record, o) ↔
          type.recordName? = some record ∧ m.2.sampleObject? = some o) ∧
      schemas = ds.map (fun d => Schema.ofMembers scope d.1 d.2) ∧
      (∀ place, (fieldAt? schemas place).bind (·.type.recordName?) =
        (reference? scope ds place).map Prod.fst) ∧
      (∃ owner, Set.BijOn owner (Set.Ioo 0 ds.length)
          {place | (reference? scope ds place).isSome = true} ∧
        ∀ i ∈ Set.Ioo 0 ds.length,
          (owner i).1 < i ∧ reference? scope ds (owner i) = ds[i]?) ∧
      ds.map Prod.snd = (object members).objects ∧
      ds.length = 1 + (members.map fun m => m.2.objects.length).sum := by
  intro ds schemas
  have hschemas : schemas = ds.map fun d => Schema.ofMembers scope d.1 d.2 :=
    Outline.schemas_ofObject scope name members
  have hobjects : ds.map Prod.snd = (object members).objects :=
    map_snd_definedBehind scope name (object members)
  refine ⟨?_, hschemas, ?_, ?_, hobjects, ?_⟩
  · intro k m hm
    obtain ⟨itemName, hitem⟩ := exists_ofMember_eq_ofItem scope name m.1 m.2
    refine ⟨ofMember scope name m.1 m.2, ?_, ?_, ?_, ?_⟩
    · simp [Schema.ofMembers, hm]
    · rw [isSome_recordName?_ofMember]
    · intro n o
      rw [hitem]
      exact inside?_eq_some_object_iff itemName m.2 n o
    · intro record o
      exact Schema.nested?_eq_some_iff
  · intro place
    rw [hschemas]
    exact recordName?_fieldAt? scope ds place
  · obtain ⟨paths, hpaths⟩ := exists_isIndex scope (name, members)
    exact ⟨ownerIn paths, hpaths.bijOn_ownerIn⟩
  · have hlength := congrArg List.length hobjects
    rw [List.length_map, objects, List.length_cons, length_memberObjects] at hlength
    omega

end SampleTypes
