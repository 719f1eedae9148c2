import SampleTypes.Proofs.Json.Value
import SampleTypes.Proofs.Name
import SampleTypes.Schema

/-! The objects of a sample that get definitions, as one list: an object comes first, and then,
for its members in order, the objects below the one that a member refers to. -/
namespace SampleTypes

open Text

mutual

/-- The objects defined for a value whose type has this name. -/
def definedBehind (scope : NameScope) (name : String) : Json → List (String × Members)
  | .object members => (name, members) :: definedAmong scope name members
  | .array items => definedFirst scope name items
  | _ => []

def definedFirst (scope : NameScope) (name : String) : List Json → List (String × Members)
  | [] => []
  | item :: _ => definedBehind scope name item

def definedAmong (scope : NameScope) (enclosing : String) :
    List (String × Json) → List (String × Members)
  | [] => []
  | (key, value) :: members =>
    (match (FieldType.ofMember scope enclosing key value).recordName? with
      | some name => definedBehind scope name value
      | none => []) ++ definedAmong scope enclosing members

end

/-- The objects that get definitions, with the names of their types. -/
def definedObjects (scope : NameScope) (name : String) (members : Members) :
    List (String × Members) :=
  (name, members) :: definedAmong scope name members

lemma definedBehind_eq (scope : NameScope) (name : String) (v : Json) :
    definedBehind scope name v =
      match v.sampleObject? with
      | some object => definedObjects scope name object
      | none => [] := by
  induction v with
  | object members => rfl
  | array items ih =>
    cases items with
    | nil => rfl
    | cons item items => exact ih item List.mem_cons_self
  | _ => rfl

lemma definedAmong_eq (scope : NameScope) (enclosing : String) (members : Members) :
    definedAmong scope enclosing members =
      (members.filterMap (Schema.nested? scope enclosing)).flatMap fun d =>
        definedObjects scope d.1 d.2 := by
  induction members with
  | nil => rfl
  | cons m members ih =>
    obtain ⟨key, value⟩ := m
    rw [definedAmong, ih, List.filterMap_cons, Schema.nested?]
    cases (FieldType.ofMember scope enclosing key value).recordName? with
    | none => rfl
    | some name =>
      simp only [definedBehind_eq]
      cases value.sampleObject? <;> rfl

/-- The list is depth first and in the order of the members. -/
theorem definedObjects_eq (scope : NameScope) (name : String) (members : Members) :
    definedObjects scope name members =
      (name, members) :: (members.filterMap (Schema.nested? scope name)).flatMap fun d =>
        definedObjects scope d.1 d.2 := by
  rw [definedObjects, definedAmong_eq]

/-- Every key has a field. -/
lemma Schema.exists_field_of_mem_keys {scope : NameScope} {name key : String} {members : Members}
    (h : key ∈ members.keys) :
    ∃ field ∈ (ofMembers scope name members).fields, field.key = key := by
  obtain ⟨m, hm, hkey⟩ := List.mem_map.mp h
  exact ⟨⟨m.1, FieldType.ofMember scope name m.1 m.2⟩, List.mem_map_of_mem hm, hkey⟩

namespace Outline

lemma schemasOf_append (a b : List Outline) : schemasOf (a ++ b) = schemasOf a ++ schemasOf b := by
  induction a with
  | nil => rfl
  | cons outline outlines ih => simp [schemasOf, ih]

lemma schemasOf_ofMembers {scope : NameScope} (enclosing : String) {members : Members}
    (h : ∀ m ∈ members, ∀ name, schemasOf (ofValue scope name m.2) =
      (definedBehind scope name m.2).map fun d => Schema.ofMembers scope d.1 d.2) :
    schemasOf (ofMembers scope enclosing members) =
      (definedAmong scope enclosing members).map fun d => Schema.ofMembers scope d.1 d.2 := by
  induction members with
  | nil => rfl
  | cons m members ih =>
    obtain ⟨key, value⟩ := m
    obtain ⟨hvalue, hmembers⟩ := List.forall_mem_cons.mp h
    rw [ofMembers, definedAmong, schemasOf_append, List.map_append, ih hmembers]
    congr 1
    cases (FieldType.ofMember scope enclosing key value).recordName? with
    | none => rfl
    | some name => exact hvalue name

lemma schemasOf_ofValue (scope : NameScope) (name : String) (v : Json) :
    schemasOf (ofValue scope name v) =
      (definedBehind scope name v).map fun d => Schema.ofMembers scope d.1 d.2 := by
  induction v generalizing name with
  | object members ih =>
    rw [ofValue, definedBehind, List.map_cons, ← schemasOf_ofMembers name ih]
    simp [schemasOf, schemas]
  | array items ih =>
    cases items with
    | nil => rfl
    | cons item items => exact ih item List.mem_cons_self name
  | _ => rfl

/-- The schemas of an outline are those of the defined objects. -/
theorem schemas_ofObject (scope : NameScope) (name : String) (members : Members) :
    (ofObject scope name members).schemas =
      (definedObjects scope name members).map fun d => Schema.ofMembers scope d.1 d.2 := by
  rw [ofObject, schemas, definedObjects, List.map_cons,
    schemasOf_ofMembers name fun m _ name => schemasOf_ofValue scope name m.2]

lemma mem_schemas_ofObject {scope : NameScope} {name : String} {members : Members}
    {d : String × Members} (hd : d ∈ definedObjects scope name members) :
    Schema.ofMembers scope d.1 d.2 ∈ (ofObject scope name members).schemas := by
  rw [schemas_ofObject]
  exact List.mem_map_of_mem hd

lemma ofValue_eq (scope : NameScope) (name : String) (v : Json) :
    ofValue scope name v =
      match v.sampleObject? with
      | some object => [ofObject scope name object]
      | none => [] := by
  induction v with
  | object members => rfl
  | array items ih =>
    cases items with
    | nil => rfl
    | cons item items => exact ih item List.mem_cons_self
  | _ => rfl

/-- Below an object are the outlines of what its members refer to. -/
theorem ofMembers_eq_map (scope : NameScope) (enclosing : String) (members : Members) :
    ofMembers scope enclosing members =
      (members.filterMap (Schema.nested? scope enclosing)).map fun d => ofObject scope d.1 d.2 := by
  induction members with
  | nil => rfl
  | cons m members ih =>
    obtain ⟨key, value⟩ := m
    rw [ofMembers, ih, List.filterMap_cons, Schema.nested?]
    cases (FieldType.ofMember scope enclosing key value).recordName? with
    | none => rfl
    | some name =>
      simp only [ofValue_eq]
      cases value.sampleObject? <;> rfl

mutual

lemma anyField_eq (p : Field → Bool) : (outline : Outline) →
    outline.anyField p = outline.schemas.any fun schema => schema.fields.any p
  | node schema nested => by
    rw [anyField, schemas, List.any_cons, anyFieldOf_eq p nested]

lemma anyFieldOf_eq (p : Field → Bool) : (outlines : List Outline) →
    anyFieldOf p outlines = (schemasOf outlines).any fun schema => schema.fields.any p
  | [] => rfl
  | outline :: outlines => by
    rw [anyFieldOf, schemasOf, List.any_append, anyField_eq p outline, anyFieldOf_eq p outlines]

end

end Outline

/-- Every key in a value stands on one line. -/
def Json.HasPlainKeys (v : Json) : Prop :=
  v.All fun
    | .object members => ∀ key ∈ Members.keys members, OneLine key
    | _ => True

namespace FieldType

/-- A type whose definition, if it has one, has a name on one line. -/
def Plain (type : FieldType) : Prop := ∀ name, type.recordName? = some name → OneLine name

lemma recordName?_ofScalar (v : Json) : (ofScalar v).recordName? = none := by
  cases v with
  | number n =>
    cases n with
    | int i => rfl
    | float x =>
      simp only [ofScalar, ofNumber]
      split
      · split <;> rfl
      · rfl
  | _ => rfl

lemma plain_ofScalar (v : Json) : (ofScalar v).Plain := by
  intro name hname
  rw [recordName?_ofScalar] at hname
  contradiction

lemma plain_ofItem {name : String} (h : OneLine name) (v : Json) : (ofItem name v).Plain := by
  induction v with
  | object members =>
    intro n hn
    rwa [← Option.some.inj hn]
  | array items ih =>
    cases items with
    | nil => exact fun n hn => nomatch hn
    | cons item items => exact ih item List.mem_cons_self
  | null => exact plain_ofScalar .null
  | bool b => exact plain_ofScalar (.bool b)
  | number n => exact plain_ofScalar (.number n)
  | string s => exact plain_ofScalar (.string s)

lemma plain_ofMember (scope : NameScope) {enclosing key : String} (henclosing : OneLine enclosing)
    (hkey : OneLine key) (v : Json) : (ofMember scope enclosing key v).Plain := by
  have hrecord : OneLine (scope.recordName enclosing key) := by
    cases scope with
    | qualified => exact (oneLine_append _ _).mpr ⟨henclosing, Name.oneLine_type hkey⟩
    | bare => exact Name.oneLine_type hkey
  have hitem : OneLine (scope.itemName enclosing key) :=
    (oneLine_append _ _).mpr ⟨hrecord, by decide⟩
  cases v with
  | object members =>
    intro n hn
    rwa [← Option.some.inj hn]
  | array items => exact plain_ofItem hitem (.array items)
  | null => exact plain_ofScalar .null
  | bool b => exact plain_ofScalar (.bool b)
  | number n => exact plain_ofScalar (.number n)
  | string s => exact plain_ofScalar (.string s)

end FieldType

/-- A field whose key and whose type stand on one line. -/
structure Field.Plain (field : Field) : Prop where
  key : OneLine field.key
  type : field.type.Plain

structure Schema.Plain (schema : Schema) : Prop where
  name : OneLine schema.name
  fields : ∀ field ∈ schema.fields, field.Plain

lemma Schema.plain_ofMembers {scope : NameScope} {name : String} {members : Members}
    (hname : OneLine name) (hkeys : ∀ key ∈ members.keys, OneLine key) :
    (Schema.ofMembers scope name members).Plain := by
  refine ⟨hname, ?_⟩
  intro field hfield
  obtain ⟨m, hm, rfl⟩ := List.mem_map.mp hfield
  have hkey : OneLine m.1 := hkeys m.1 (List.mem_map_of_mem hm)
  exact ⟨hkey, FieldType.plain_ofMember scope hname hkey m.2⟩

/-- Where names are not qualified, the type of a field depends on its own key only. -/
lemma Field.plain_of_mem_ofMembers {name : String} {members : Members} {field : Field}
    (hfield : field ∈ (Schema.ofMembers .bare name members).fields) (hkey : OneLine field.key) :
    field.Plain := by
  obtain ⟨⟨key, value⟩, -, rfl⟩ := List.mem_map.mp hfield
  have hbare : FieldType.ofMember .bare name key value = FieldType.ofMember .bare "" key value := by
    cases value <;> rfl
  have htype : (FieldType.ofMember .bare name key value).Plain := by
    rw [hbare]
    exact FieldType.plain_ofMember .bare (by decide) hkey value
  exact ⟨hkey, htype⟩

/-- An object with its type name, where that and all keys stand on one line. -/
def IsPlainObject (d : String × Members) : Prop := OneLine d.1 ∧ ∀ key ∈ d.2.keys, OneLine key

lemma isPlainObject_of_mem_definedAmong {scope : NameScope} {enclosing : String}
    (henclosing : OneLine enclosing) {members : Members}
    (hkeys : ∀ key ∈ members.keys, OneLine key)
    (h : ∀ m ∈ members, ∀ name, OneLine name →
      ∀ d ∈ definedBehind scope name m.2, IsPlainObject d) :
    ∀ d ∈ definedAmong scope enclosing members, IsPlainObject d := by
  induction members with
  | nil => exact List.forall_mem_nil _
  | cons m members ih =>
    obtain ⟨key, value⟩ := m
    obtain ⟨hvalue, hmembers⟩ := List.forall_mem_cons.mp h
    rw [Members.keys_cons] at hkeys
    obtain ⟨hkey, hkeys⟩ := List.forall_mem_cons.mp hkeys
    have hplain := FieldType.plain_ofMember scope henclosing hkey value
    rw [definedAmong]
    refine List.forall_mem_append.mpr ⟨?_, ih hkeys hmembers⟩
    cases hname : (FieldType.ofMember scope enclosing key value).recordName? with
    | none => exact List.forall_mem_nil _
    | some name => exact hvalue name (hplain name hname)

lemma isPlainObject_of_mem_definedBehind {scope : NameScope} {v : Json} (hv : v.HasPlainKeys)
    {name : String} (hname : OneLine name) : ∀ d ∈ definedBehind scope name v, IsPlainObject d := by
  induction v generalizing name with
  | object members ih =>
    obtain ⟨hkeys, hmembers⟩ := (Json.all_object _ _).mp hv
    rw [definedBehind]
    refine List.forall_mem_cons.mpr ⟨⟨hname, hkeys⟩, ?_⟩
    exact isPlainObject_of_mem_definedAmong hname hkeys fun m hm name hname =>
      ih m hm (hmembers m hm) hname
  | array items ih =>
    cases items with
    | nil => exact List.forall_mem_nil _
    | cons item items =>
      have hitem := ((Json.all_array _ _).mp hv).2 item List.mem_cons_self
      exact ih item List.mem_cons_self hitem hname
  | _ => exact List.forall_mem_nil _

/-- All schemas of an object are plain if its name and keys are. -/
theorem plain_of_mem_definedObjects {scope : NameScope} {name : String} {members : Members}
    (hname : OneLine name) (hkeys : (Json.object members).HasPlainKeys) :
    ∀ d ∈ definedObjects scope name members, (Schema.ofMembers scope d.1 d.2).Plain := by
  intro d hd
  obtain ⟨hd₁, hd₂⟩ :=
    isPlainObject_of_mem_definedBehind hkeys hname d hd
  exact Schema.plain_ofMembers hd₁ hd₂

end SampleTypes
