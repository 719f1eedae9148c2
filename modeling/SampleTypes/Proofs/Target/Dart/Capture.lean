import SampleTypes.Proofs.Name.Spelling
import SampleTypes.Proofs.Schema.Reference
import SampleTypes.Proofs.Target.Dart.Syntax

/-! What a name means inside a Dart class. Parameters and variables hide the fields of their name,
and a method of the same name makes them ambiguous, so a key that spells a name of the class
itself loses its field; every other key has a field that both routines reach. -/
namespace SampleTypes.Target.Dart

open Name

section Keys

variable (camel : Bool) (key : String)

/-- Only a reserved word gets an underscore, so another name is that of a key just as it is
converted. -/
lemma fieldName_eq_iff {name : String} (hreserved : naming.isReserved name = false)
    (hend : name.toList.getLast? ≠ some '_') :
    naming.fieldName camel key = name ↔ property camel key = name := by
  have hconvert : naming.convert camel key = property camel key := rfl
  have hescape : ∀ word, (naming.escape word).toList.getLast? = some '_' := by
    intro word
    have hunderscore : naming.escape word = word ++ "_" := rfl
    rw [hunderscore, String.toList_append]
    exact List.getLast?_concat
  rw [Convention.fieldName, Convention.safeName, hconvert]
  split
  · next h =>
    constructor
    · rintro rfl
      exact absurd (hescape _) hend
    · rintro rfl
      rw [hreserved] at h
      contradiction
  · rfl

/-- Which keys get a name that is made of words. -/
lemma fieldName_eq_iff_spells {name word : String} {words : List String}
    (hname : word ++ String.join (words.map capitalize) = name)
    (hsmall : ∀ part ∈ word :: words, IsSmall part)
    (hfirst : word.toList.head? ≠ some 'i' ∧ word.toList.head? ≠ some 'k')
    (hreserved : naming.isReserved name = false) (hend : name.toList.getLast? ≠ some '_') :
    naming.fieldName camel key = name ↔ Spells camel word words key := by
  obtain ⟨hword, hwords⟩ := List.forall_mem_cons.mp hsmall
  rw [fieldName_eq_iff camel key hreserved hend, ← hname]
  exact property_eq_iff_spells camel hword hfirst hwords key

lemma fieldName_eq_json_iff :
    naming.fieldName camel key = "json" ↔ Spells camel "json" [] key := by
  apply fieldName_eq_iff_spells
  all_goals decide +kernel

lemma fieldName_eq_data_iff :
    naming.fieldName camel key = "data" ↔ Spells camel "data" [] key := by
  apply fieldName_eq_iff_spells
  all_goals decide +kernel

lemma fieldName_eq_toJson_iff :
    naming.fieldName camel key = "toJson" ↔ Spells camel "to" ["json"] key := by
  apply fieldName_eq_iff_spells
  all_goals decide +kernel

end Keys

inductive Meaning where
  | field
  | method
  | parameter
  | final

/-- The names that a routine gives a meaning of its own. -/
inductive Routine.Binds (r : Routine) : String → Meaning → Prop where
  | parameter {type x : String} : (type, x) ∈ r.parameters → r.Binds x .parameter
  | final {x : String} {value : Expr} : .final x value ∈ r.body → r.Binds x .final

namespace Class

/-- The names of the members of a class. -/
inductive Binds (c : Class) : String → Meaning → Prop where
  | field {type x : String} : (type, x) ∈ c.fields → c.Binds x .field
  | method : c.Binds c.writer.name .method

/-- What a name can mean in a routine of a class: a member, unless the routine hides it. -/
inductive Means (c : Class) (r : Routine) : String → Meaning → Prop where
  | inner {x : String} {m : Meaning} : r.Binds x m → c.Means r x m
  | outer {x : String} {m : Meaning} : (∀ own, ¬r.Binds x own) → c.Binds x m → c.Means r x m

/-- A name denotes what it means, if it means that alone. -/
def Denotes (c : Class) (r : Routine) (x : String) (m : Meaning) : Prop :=
  c.Means r x m ∧ ∀ other, c.Means r x other → other = m

/-- What is read goes to fields, and what is written comes from fields. -/
structure ReachesFields (c : Class) : Prop where
  read : ∀ x value, .assign (.name x) value ∈ c.reader.body → c.Denotes c.reader x .field
  written : ∀ target value, .assign target value ∈ c.writer.body →
    ∀ x ∈ value.free, c.Denotes c.writer x .field

/-- A field is denoted by its name where that is no name of the routine, nor that of the method. -/
lemma denotes_field_iff {c : Class} {r : Routine} {type x : String} (hx : (type, x) ∈ c.fields) :
    c.Denotes r x .field ↔ (∀ own, ¬r.Binds x own) ∧ x ≠ c.writer.name := by
  constructor
  · rintro ⟨hmeans, honly⟩
    constructor
    · intro own hown
      obtain rfl := honly own (.inner hown)
      cases hown
    · rintro rfl
      cases hmeans with
      | inner hown => cases hown
      | outer hown _ =>
        have hmethod := honly .method (.outer hown .method)
        contradiction
  · rintro ⟨hown, hmethod⟩
    refine ⟨.outer hown (.field hx), ?_⟩
    intro other hother
    cases hother with
    | inner h => exact absurd h (hown other)
    | outer _ h =>
      cases h with
      | field _ => rfl
      | method => exact absurd rfl hmethod

/-- In a routine that binds one name, these are two names to avoid. -/
lemma denotes_field_iff_ne {c : Class} {r : Routine} {type x own : String} {kind : Meaning}
    (hx : (type, x) ∈ c.fields) (hbinds : ∀ y m, r.Binds y m ↔ y = own ∧ m = kind) :
    c.Denotes r x .field ↔ x ≠ own ∧ x ≠ c.writer.name := by
  rw [denotes_field_iff hx]
  simp only [hbinds, not_and]
  constructor
  · rintro ⟨hown, hmethod⟩
    exact ⟨fun hx => hown kind hx rfl, hmethod⟩
  · rintro ⟨hne, hmethod⟩
    exact ⟨fun _ hx => absurd hx hne, hmethod⟩

section Schema

variable (camel : Bool) (schema : Schema)

lemma reader_binds_iff (x : String) (m : Meaning) :
    (ofSchema camel schema).reader.Binds x m ↔ x = "json" ∧ m = .parameter := by
  constructor
  · intro h
    cases h with
    | parameter hx =>
      obtain ⟨-, rfl⟩ := Prod.mk.inj (List.mem_singleton.mp hx)
      exact ⟨rfl, rfl⟩
    | final hx =>
      obtain ⟨field, -, hfield⟩ := (mem_reader_body_iff camel).mp hx
      cases hfield
  · rintro ⟨rfl, rfl⟩
    exact .parameter List.mem_cons_self

lemma writer_binds_iff (x : String) (m : Meaning) :
    (ofSchema camel schema).writer.Binds x m ↔ x = "data" ∧ m = .final := by
  constructor
  · intro h
    cases h with
    | parameter hx => exact absurd hx List.not_mem_nil
    | final hx =>
      rcases (mem_writer_body_iff camel).mp hx with hx | ⟨field, -, hx⟩ | hx
      · cases hx
        exact ⟨rfl, rfl⟩
      · cases hx
      · cases hx
  · rintro ⟨rfl, rfl⟩
    exact .final List.mem_cons_self

variable {schema} {field : Field} (hfield : field ∈ schema.fields)

include hfield

lemma mem_fields_ofSchema :
    (declaredType field.type, naming.fieldName camel field.key) ∈ (ofSchema camel schema).fields :=
  List.mem_map_of_mem hfield

lemma reader_denotes_field_iff :
    (ofSchema camel schema).Denotes (ofSchema camel schema).reader
        (naming.fieldName camel field.key) .field ↔
      ¬Spells camel "json" [] field.key ∧ ¬Spells camel "to" ["json"] field.key := by
  rw [← fieldName_eq_json_iff, ← fieldName_eq_toJson_iff]
  exact denotes_field_iff_ne (mem_fields_ofSchema camel hfield) (reader_binds_iff camel schema)

lemma writer_denotes_field_iff :
    (ofSchema camel schema).Denotes (ofSchema camel schema).writer
        (naming.fieldName camel field.key) .field ↔
      ¬Spells camel "data" [] field.key ∧ ¬Spells camel "to" ["json"] field.key := by
  rw [← fieldName_eq_data_iff, ← fieldName_eq_toJson_iff]
  exact denotes_field_iff_ne (mem_fields_ofSchema camel hfield) (writer_binds_iff camel schema)

end Schema

/-- What is written for a field takes one name from around it, that of the field. -/
lemma free_writing (type : FieldType) (x : String) : (writing type x).free = [x] := by
  unfold writing
  split <;> simp [Expr.free]

lemma reachesFields_iff (camel : Bool) (schema : Schema) :
    (ofSchema camel schema).ReachesFields ↔ ∀ field ∈ schema.fields,
      (ofSchema camel schema).Denotes (ofSchema camel schema).reader
          (naming.fieldName camel field.key) .field ∧
        (ofSchema camel schema).Denotes (ofSchema camel schema).writer
          (naming.fieldName camel field.key) .field := by
  constructor
  · intro h field hfield
    constructor
    · exact h.read _ _ (assign_reading_mem camel hfield)
    · apply h.written _ _ (assign_writing_mem camel hfield)
      rw [free_writing]
      exact List.mem_singleton_self _
  · intro h
    constructor
    · intro x value hvalue
      obtain ⟨field, hfield, heq⟩ := (mem_reader_body_iff camel).mp hvalue
      cases heq
      exact (h field hfield).1
    · intro target value hvalue x hx
      rcases (mem_writer_body_iff camel).mp hvalue with hvalue | ⟨field, hfield, hvalue⟩ | hvalue
      · cases hvalue
      · cases hvalue
        rw [free_writing, List.mem_singleton] at hx
        rw [hx]
        exact (h field hfield).2
      · cases hvalue

end Class

/-- Code for a sample is that of the classes of its objects. In each of them the field of a key is
what its name denotes where it is read into, unless the key spells the parameter or the method,
and where it is written from, unless the key spells the variable or the method. So a class reaches
all of its fields exactly if no key spells one of the three. -/
theorem denotes_field_iff_not_spells {sample : Json} {object : Members}
    (hobject : sample.described? = some object) (root : String) (camel : Bool) :
    let classOf := fun d : String × Members => Class.ofSchema camel (.ofMembers .bare d.1 d.2)
    let ds := definedObjects .bare (Name.type root) object
    Language.dart.generate sample root camel = "\n".intercalate (classLines (ds.map classOf)) ∧
      ∀ d ∈ ds,
        (∀ key ∈ d.2.keys,
          ((classOf d).Denotes (classOf d).reader (naming.fieldName camel key) .field ↔
            ¬Spells camel "json" [] key ∧ ¬Spells camel "to" ["json"] key) ∧
          ((classOf d).Denotes (classOf d).writer (naming.fieldName camel key) .field ↔
            ¬Spells camel "data" [] key ∧ ¬Spells camel "to" ["json"] key)) ∧
        ((classOf d).ReachesFields ↔ ∀ key ∈ d.2.keys,
          ¬Spells camel "json" [] key ∧ ¬Spells camel "data" [] key ∧
            ¬Spells camel "to" ["json"] key) := by
  intro classOf ds
  refine ⟨generate_eq_classes hobject root camel, ?_⟩
  rintro ⟨name, members⟩ -
  have hkeys : ∀ p : String → Prop, (∀ key ∈ members.keys, p key) ↔
      ∀ field ∈ (Schema.ofMembers .bare name members).fields, p field.key := by
    intro p
    simp only [Members.keys, Schema.ofMembers, List.forall_mem_map]
  constructor
  · rw [hkeys]
    intro field hfield
    exact ⟨Class.reader_denotes_field_iff camel hfield, Class.writer_denotes_field_iff camel hfield⟩
  · rw [hkeys, Class.reachesFields_iff]
    refine forall₂_congr fun field hfield => ?_
    rw [Class.reader_denotes_field_iff camel hfield, Class.writer_denotes_field_iff camel hfield]
    tauto

/-- A field that is reached in both directions, beside one that has the name of the method. -/
theorem denotes_field_iff_not_spells_method :
    let object : Members := [("full_name", .string ""), ("to_json", .null)]
    let c := Class.ofSchema true (.ofMembers .bare "Root" object)
    ((Json.array [.object object]).described? = some object ∧
      ("Root", object) ∈ definedObjects .bare (Name.type "root") object ∧
      "full_name" ∈ object.keys) ∧
    naming.fieldName true "full_name" = "fullName" ∧ c.Denotes c.reader "fullName" .field ∧
      c.Denotes c.writer "fullName" .field ∧ ¬c.ReachesFields := by
  intro object c
  have hobject : (Json.array [.object object]).described? = some object := rfl
  have hroot : Name.type "root" = "Root" := by decide +kernel
  have hdefined : ("Root", object) ∈ definedObjects .bare (Name.type "root") object := by
    rw [hroot]
    exact List.mem_cons_self
  have hkey : "full_name" ∈ object.keys := List.mem_cons_self
  have hname : naming.fieldName true "full_name" = "fullName" := by decide +kernel
  obtain ⟨hdenotes, hreaches⟩ :=
    (denotes_field_iff_not_spells hobject "root" true).2 ("Root", object) hdefined
  obtain ⟨hread, hwritten⟩ := hdenotes "full_name" hkey
  rw [hname, ← fieldName_eq_json_iff, ← fieldName_eq_toJson_iff, hname] at hread
  rw [hname, ← fieldName_eq_data_iff, ← fieldName_eq_toJson_iff, hname] at hwritten
  have hmethod : naming.fieldName true "to_json" = "toJson" := by decide +kernel
  refine ⟨⟨hobject, hdefined, hkey⟩, hname, hread.mpr (by decide), hwritten.mpr (by decide), ?_⟩
  intro h
  have hspells := (hreaches.mp h "to_json" (List.mem_cons_of_mem _ List.mem_cons_self)).2.2
  exact hspells ((fieldName_eq_toJson_iff true "to_json").mp hmethod)

/-- A key that spells the variable. The map is stored in itself, and the field is never written. -/
theorem map_is_stored_in_itself :
    let object : Members := [("data", .number (.int 1))]
    let c := Class.ofSchema true (.ofMembers .bare "Root" object)
    (Language.dart.generate (.object object) "Root" true = "\n".intercalate (classLines [c]) ∧
      "\n".intercalate (classLines [c]) = "\n".intercalate [
        "class Root \x7b", "  int? data;", "",
        "  Root.fromJson(Map<String, dynamic> json) \x7b", "    data = json['data'];", "  \x7d", "",
        "  Map<String, dynamic> toJson() \x7b", "    final data = <String, dynamic>\x7b\x7d;",
        "    data['data'] = data;", "    return data;", "  \x7d", "\x7d"]) ∧
    c.Denotes c.writer "data" .final ∧ ¬c.Denotes c.writer "data" .field ∧ ¬c.ReachesFields := by
  intro object c
  have hdata : naming.fieldName true "data" = "data" := by decide +kernel
  have hroot : Name.type "Root" = "Root" := by decide +kernel
  have hfinal : c.Denotes c.writer "data" .final := by
    have hbinds : c.writer.Binds "data" .final := .final List.mem_cons_self
    refine ⟨.inner hbinds, fun other hother => ?_⟩
    cases hother with
    | inner h => exact ((Class.writer_binds_iff true _ _ _).mp h).2
    | outer h _ => exact absurd hbinds (h _)
  have hfield : ¬c.Denotes c.writer "data" .field := by
    intro h
    have heq := hfinal.2 .field h.1
    contradiction
  refine ⟨⟨?_, ?_⟩, hfinal, hfield, ?_⟩
  · have hdescribed : (Json.object object).described? = some object := rfl
    have hcode := generate_eq_classes hdescribed "Root" true
    rw [hroot] at hcode
    exact hcode
  · decide +kernel
  · intro h
    have hwritten := ((Class.reachesFields_iff true _).mp h _ List.mem_cons_self).2
    rw [hdata] at hwritten
    exact hfield hwritten

end SampleTypes.Target.Dart
