import SampleTypes.Generate
import SampleTypes.Proofs.Schema.Reference
import SampleTypes.Proofs.Target.Convention
import SampleTypes.Proofs.Target.FlatPrinter
import SampleTypes.Proofs.Target.Line

/-! The two parts of Objective-C code. Interfaces and implementations are written by one recursion
into texts that are cut into lines at every level; both are blocks of lines for the same classes. -/
namespace SampleTypes

open Layout Target Text

/-- The types that the fields of a schema refer to. -/
def Schema.references (schema : Schema) : List String :=
  schema.fields.filterMap (·.type.recordName?)

namespace Target.ObjectiveC

/-- The name of the property for a field. -/
def propertyName (camel : Bool) (field : Field) : String := naming.fieldName camel field.key

/-- What stands between a type and a name. -/
def separator (type : String) : String := if type.toList.getLast? = some '*' then "" else " "

/-- What stands before the name in the declaration of a property. -/
def declarator (type : FieldType) : String :=
  "@property (nonatomic, " ++ (storage type).1 ++ ") " ++ (storage type).2 ++
    separator (storage type).2

/-- Lines with a blank one after them, or no line at all. -/
def withBlank (ls : List String) : List String := if ls.isEmpty then [] else ls ++ [""]

def classLine (name : String) : String := "@class " ++ name ++ ";"

def interfaceLine (schema : Schema) : String :=
  "@interface " ++ schema.name ++ " : NSObject <YYModel>"

def propertyLine (camel : Bool) (field : Field) : String :=
  declarator field.type ++ propertyName camel field ++ ";"

/-- The lines of an interface: the classes that it refers to, its name and its properties. -/
def interfaceBlock (camel : Bool) (schema : Schema) : List String :=
  withBlank (schema.references.map classLine) ++ [interfaceLine schema, ""] ++
    withBlank (schema.fields.map (propertyLine camel)) ++ ["@end"]

def implementationLine (schema : Schema) : String := "@implementation " ++ schema.name

/-- The keys of the renamed properties. -/
def keyMap (camel : Bool) (schema : Schema) : List (String × String) :=
  (schema.fields.filter fun field => naming.renames camel field.key).map fun field =>
    (propertyName camel field, field.key)

/-- The class of the items, if a type is that of a list directly of objects. -/
def itemClass? : FieldType → Option String
  | .list (.record item) => some item
  | _ => none

/-- The item classes of the properties that hold a list directly of objects. -/
def classMap (camel : Bool) (schema : Schema) : List (String × String) :=
  schema.fields.filterMap fun field =>
    (itemClass? field.type).map fun item => (propertyName camel field, item)

def keyMethod : String := "+ (NSDictionary *)modelCustomPropertyMapper \x7b"

def classMethod : String := "+ (NSDictionary *)modelContainerPropertyGenericClass \x7b"

def keyEntry (entry : String × String) : String :=
  "@" ++ Json.quoted entry.1 ++ ": @" ++ Json.quoted entry.2 ++ ","

def classEntry (entry : String × String) : String :=
  "@" ++ Json.quoted entry.1 ++ ": [" ++ entry.2 ++ " class],"

/-- The lines of a method that returns a dictionary, or none for no entries. -/
def methodBlock (signature : String) (entries : List String) : List String :=
  if entries.isEmpty then []
  else [signature, "    return @\x7b"] ++ entries.map ("        " ++ ·) ++ ["    \x7d;", "\x7d", ""]

/-- The lines of an implementation: its name and its two dictionaries. -/
def implementationBlock (camel : Bool) (schema : Schema) : List String :=
  [implementationLine schema, ""] ++ methodBlock keyMethod ((keyMap camel schema).map keyEntry) ++
    methodBlock classMethod ((classMap camel schema).map classEntry) ++ ["@end"]

lemma itemClass?_eq_some_iff {type : FieldType} {item : String} :
    itemClass? type = some item ↔ type = .list (.record item) := by
  cases type with
  | list element => cases element <;> simp [itemClass?]
  | _ => simp [itemClass?]

/-! The items of a class are these lines. -/

lemma property_eq (camel : Bool) (field : Field) :
    property camel field = propertyLine camel field := by
  unfold property propertyLine declarator separator propertyName
  cases storage field.type
  rfl

lemma filterMap_keyPair? (camel : Bool) (schema : Schema) :
    schema.fields.filterMap (keyPair? camel) = (keyMap camel schema).map keyEntry := by
  rw [keyMap, List.map_map, ← List.filterMap_eq_map, List.filterMap_filter]
  refine List.filterMap_congr fun field _ => ?_
  rfl

lemma filterMap_classPair? (camel : Bool) (schema : Schema) :
    schema.fields.filterMap (classPair? camel) = (classMap camel schema).map classEntry := by
  rw [classMap, List.map_filterMap]
  refine List.filterMap_congr fun field _ => ?_
  unfold classPair? itemClass?
  cases field.type with
  | list element => cases element <;> rfl
  | _ => rfl

lemma flatAll_withBlank (texts : List String) :
    Item.flatAll (.spaces 4) 0 (if texts.isEmpty then [] else Item.lines texts ++ [.blank]) =
      withBlank texts := by
  rw [withBlank]
  split
  · rfl
  · rw [Item.flatAll_append, Item.flatAll_lines, Indent.map_indented_zero]
    rfl

lemma flatAll_interfaceItems (camel : Bool) (schema : Schema) :
    Item.flatAll (.spaces 4) 0 (interfaceItems camel schema schema.references) =
      interfaceBlock camel schema := by
  have hclasses := flatAll_withBlank (schema.references.map classLine)
  have hproperties := flatAll_withBlank (schema.fields.map (property camel))
  have hproperty : property camel = propertyLine camel := funext (property_eq camel)
  rw [List.isEmpty_map] at hclasses hproperties
  rw [interfaceItems, interfaceBlock, Item.flatAll_append, Item.flatAll_append, Item.flatAll_append,
    hproperties, hproperty, ← hclasses]
  rfl

lemma flatAll_dictionaryMethod (signature : String)
    {entries : List String} (hentries : ∀ entry ∈ entries, entry ≠ "") :
    Item.flatAll (.spaces 4) 0 (dictionaryMethod signature entries) =
      methodBlock signature entries := by
  have height : (Indent.spaces 4).times 2 = "        " := by rfl
  have hfour : (Indent.spaces 4).times 1 = "    " := by rfl
  rw [dictionaryMethod, methodBlock]
  split
  · rfl
  · simp only [Item.flatAll, Item.flat, Item.flatAll_lines, Indent.map_indented _ _ hentries]
    simp [Indent.indented_of_ne _ 1, height, hfour]

lemma keyEntry_ne (entry : String × String) : keyEntry entry ≠ "" := by simp [keyEntry]

lemma classEntry_ne (entry : String × String) : classEntry entry ≠ "" := by simp [classEntry]

lemma flatAll_implementationItems (camel : Bool) (schema : Schema) :
    Item.flatAll (.spaces 4) 0 (implementationItems camel schema) =
      implementationBlock camel schema := by
  have hkeys : ∀ entry ∈ (keyMap camel schema).map keyEntry, entry ≠ "" :=
    List.forall_mem_map.mpr fun entry _ => keyEntry_ne entry
  have hclasses : ∀ entry ∈ (classMap camel schema).map classEntry, entry ≠ "" :=
    List.forall_mem_map.mpr fun entry _ => classEntry_ne entry
  rw [implementationItems, implementationBlock, Item.flatAll_append, Item.flatAll_append,
    Item.flatAll_append, filterMap_keyPair?, filterMap_classPair?,
    flatAll_dictionaryMethod _ hkeys, flatAll_dictionaryMethod _ hclasses]
  rfl

/-! Both are blocks of whole lines. -/

lemma oneLine_propertyName (camel : Bool) {field : Field} (h : field.Plain) :
    OneLine (propertyName camel field) :=
  Convention.keepsLines_objectiveC.fieldName camel h.key

lemma oneLine_storage {type : FieldType} (h : type.Plain) :
    OneLine (storage type).1 ∧ OneLine (storage type).2 := by
  have hspell := Tokens.keepsLines_objectiveC.spell h
  cases type with
  | list element => exact ⟨show OneLine "copy" by decide, hspell⟩
  | record name => exact ⟨show OneLine "strong" by decide, hspell⟩
  | _ => exact ⟨by decide, by decide⟩

lemma oneLine_separator (type : String) : OneLine (separator type) := by
  rw [separator]
  split <;> decide

lemma oneLine_declarator {type : FieldType} (h : type.Plain) : OneLine (declarator type) := by
  obtain ⟨hattributes, htype⟩ := oneLine_storage h
  unfold declarator
  simp only [oneLine_append]
  exact ⟨⟨⟨⟨by decide, hattributes⟩, by decide⟩, htype⟩, oneLine_separator _⟩

lemma oneLine_propertyLine (camel : Bool) {field : Field} (h : field.Plain) :
    OneLine (propertyLine camel field) := by
  have hdeclarator := oneLine_declarator h.type
  have hname := oneLine_propertyName camel h
  simp only [propertyLine, oneLine_append]
  exact ⟨⟨hdeclarator, hname⟩, by decide⟩

lemma oneLine_withBlank {ls : List String} (h : ∀ l ∈ ls, OneLine l) :
    ∀ l ∈ withBlank ls, OneLine l := by
  rw [withBlank]
  split
  · exact List.forall_mem_nil _
  · exact List.forall_mem_append.mpr ⟨h, List.forall_mem_singleton.mpr (by decide)⟩

lemma isBlock_interfaceBlock (camel : Bool) {schema : Schema} (h : schema.Plain) :
    FlatPrinter.IsBlock (interfaceBlock camel schema) := by
  have hclasses : ∀ l ∈ schema.references.map classLine, OneLine l := by
    intro l hl
    obtain ⟨name, hname, rfl⟩ := List.mem_map.mp hl
    obtain ⟨field, hfield, hrecord⟩ := List.mem_filterMap.mp hname
    have hname := (h.fields field hfield).type name hrecord
    simp only [classLine, oneLine_append]
    exact ⟨⟨by decide, hname⟩, by decide⟩
  have hproperties : ∀ l ∈ schema.fields.map (propertyLine camel), OneLine l :=
    List.forall_mem_map.mpr fun field hfield => oneLine_propertyLine camel (h.fields field hfield)
  have hinterface : OneLine (interfaceLine schema) := by
    simp only [interfaceLine, oneLine_append]
    exact ⟨⟨by decide, h.name⟩, by decide⟩
  refine ⟨?_, ?_, ?_⟩
  · simp only [interfaceBlock, List.forall_mem_append, List.forall_mem_cons]
    exact ⟨⟨⟨oneLine_withBlank hclasses, hinterface, by decide, List.forall_mem_nil _⟩,
      oneLine_withBlank hproperties⟩, by decide, List.forall_mem_nil _⟩
  · rw [interfaceBlock]
    cases schema.references with
    | nil => exact ⟨_, _, rfl, by simp [interfaceLine]⟩
    | cons name names => exact ⟨_, _, rfl, by simp [classLine]⟩
  · rw [interfaceBlock, List.getLast?_concat]
    decide

lemma oneLine_methodBlock {signature : String} (hsignature : OneLine signature)
    {entries : List String} (hentries : ∀ entry ∈ entries, OneLine entry) :
    ∀ l ∈ methodBlock signature entries, OneLine l := by
  have hindented : ∀ l ∈ entries.map ("        " ++ ·), OneLine l :=
    List.forall_mem_map.mpr fun entry hentry =>
      (oneLine_append _ _).mpr ⟨by decide, hentries entry hentry⟩
  rw [methodBlock]
  split
  · exact List.forall_mem_nil _
  · simp only [List.forall_mem_append, List.forall_mem_cons]
    exact ⟨⟨⟨hsignature, by decide, List.forall_mem_nil _⟩, hindented⟩, by decide, by decide,
      by decide, List.forall_mem_nil _⟩

lemma isBlock_implementationBlock (camel : Bool) {schema : Schema} (h : schema.Plain) :
    FlatPrinter.IsBlock (implementationBlock camel schema) := by
  have hkeys : ∀ l ∈ (keyMap camel schema).map keyEntry, OneLine l := by
    refine List.forall_mem_map.mpr fun entry _ => ?_
    simp only [keyEntry, oneLine_append]
    exact ⟨⟨⟨⟨by decide, Json.oneLine_quoted _⟩, by decide⟩, Json.oneLine_quoted _⟩, by decide⟩
  have hclasses : ∀ l ∈ (classMap camel schema).map classEntry, OneLine l := by
    refine List.forall_mem_map.mpr fun entry hentry => ?_
    obtain ⟨field, hfield, hitem⟩ := List.mem_filterMap.mp hentry
    obtain ⟨item, htype, rfl⟩ := Option.map_eq_some_iff.mp hitem
    have hname : OneLine item := by
      refine (h.fields field hfield).type item ?_
      rw [itemClass?_eq_some_iff.mp htype]
      rfl
    simp only [classEntry, oneLine_append]
    exact ⟨⟨⟨⟨by decide, Json.oneLine_quoted _⟩, by decide⟩, hname⟩, by decide⟩
  have himplementation : OneLine (implementationLine schema) :=
    (oneLine_append _ _).mpr ⟨by decide, h.name⟩
  have hne : implementationLine schema ≠ "" := by
    unfold implementationLine
    simp
  refine ⟨?_, ⟨_, _, rfl, hne⟩, ?_⟩
  · simp only [implementationBlock, List.forall_mem_append, List.forall_mem_cons]
    exact ⟨⟨⟨⟨himplementation, by decide, List.forall_mem_nil _⟩,
      oneLine_methodBlock (by decide) hkeys⟩, oneLine_methodBlock (by decide) hclasses⟩,
      by decide, List.forall_mem_nil _⟩
  · rw [implementationBlock, List.getLast?_concat]
    decide

/-- Every property is declared in the interface. -/
lemma propertyLine_mem {camel : Bool} {schema : Schema} {field : Field}
    (h : field ∈ schema.fields) :
    propertyLine camel field ∈ interfaceBlock camel schema := by
  have hline : propertyLine camel field ∈ withBlank (schema.fields.map (propertyLine camel)) := by
    rw [withBlank, if_neg (by simpa using List.ne_nil_of_mem h)]
    exact List.mem_append_left _ (List.mem_map_of_mem h)
  exact List.mem_append_left _ (List.mem_append_right _ hline)

/-! How the lines of a block begin. -/

section Heads

variable {head : String}

lemma startsWith_interfaceLine (h : Apart head "@interface ") (schema : Schema) :
    startsWith head (interfaceLine schema) = false := by
  rw [interfaceLine, String.append_assoc]
  exact h.startsWith_append _

lemma startsWith_implementationLine (h : Apart head "@implementation ") (schema : Schema) :
    startsWith head (implementationLine schema) = false :=
  h.startsWith_append schema.name

variable (hblank : startsWith head "" = false)

include hblank

lemma filter_withBlank {ls : List String} (h : ∀ l ∈ ls, startsWith head l = false) :
    (withBlank ls).filter (startsWith head) = [] := by
  refine List.filter_eq_nil_iff.mpr fun l hl => ?_
  rw [Bool.not_eq_true]
  rw [withBlank] at hl
  split at hl
  · contradiction
  · rcases List.mem_append.mp hl with hl | hl
    · exact h l hl
    · rwa [List.mem_singleton.mp hl]

/-- Among the lines of an interface, only the first after the classes may begin like this. -/
lemma filter_interfaceBlock (h : ∀ a ∈ ["@class ", "@property (nonatomic, "], Apart head a)
    (hend : startsWith head "@end" = false) (camel : Bool) (schema : Schema) :
    (interfaceBlock camel schema).filter (startsWith head) =
      [interfaceLine schema].filter (startsWith head) := by
  obtain ⟨hclass, hproperty, -⟩ := by simpa only [List.forall_mem_cons] using h
  have hclasses : ∀ l ∈ schema.references.map classLine, startsWith head l = false := by
    refine List.forall_mem_map.mpr fun name _ => ?_
    rw [classLine, String.append_assoc]
    exact hclass.startsWith_append _
  have hproperties : ∀ l ∈ schema.fields.map (propertyLine camel), startsWith head l = false := by
    refine List.forall_mem_map.mpr fun field _ => ?_
    unfold propertyLine declarator
    simp only [String.append_assoc]
    exact hproperty.startsWith_append _
  rw [interfaceBlock, List.filter_append, List.filter_append, List.filter_append,
    filter_withBlank hblank hclasses, filter_withBlank hblank hproperties]
  simp [List.filter_cons, hblank, hend]

lemma filter_methodBlock (h : Apart head "    ") (hend : startsWith head "\x7d" = false)
    (signature : String) (entries : List String) :
    (methodBlock signature entries).filter (startsWith head) =
      if entries.isEmpty then [] else [signature].filter (startsWith head) := by
  have hopen : startsWith head "    return @\x7b" = false := h.startsWith_append "return @\x7b"
  have hclose : startsWith head "    \x7d;" = false := h.startsWith_append "\x7d;"
  have hentries : (entries.map ("        " ++ ·)).filter (startsWith head) = [] := by
    refine List.filter_eq_nil_iff.mpr (List.forall_mem_map.mpr fun entry _ => ?_)
    rw [Bool.not_eq_true]
    exact h.startsWith_append ("    " ++ entry)
  rw [methodBlock]
  split
  · rfl
  · rw [List.filter_append, List.filter_append, hentries]
    simp [List.filter_cons, hblank, hend, hopen, hclose]

/-- Among the lines of an implementation, only the first and the signatures of its methods may begin
like this. -/
lemma filter_implementationBlock (h : Apart head "    ") (hend : startsWith head "\x7d" = false)
    (hlast : startsWith head "@end" = false) (camel : Bool) (schema : Schema) :
    (implementationBlock camel schema).filter (startsWith head) =
      [implementationLine schema].filter (startsWith head) ++
      (if (keyMap camel schema).isEmpty then [] else [keyMethod].filter (startsWith head)) ++
      (if (classMap camel schema).isEmpty then [] else [classMethod].filter (startsWith head)) := by
  rw [implementationBlock, List.filter_append, List.filter_append, List.filter_append,
    filter_methodBlock hblank h hend, filter_methodBlock hblank h hend, List.isEmpty_map,
    List.isEmpty_map]
  simp [List.filter_cons, hblank, hlast]

end Heads

/-- The methods of an implementation: one for renamed properties, and one for lists of objects. -/
lemma filter_methods (camel : Bool) (schema : Schema) :
    (implementationBlock camel schema).filter (startsWith "+ ") =
      (if (keyMap camel schema).isEmpty then [] else [keyMethod]) ++
        (if (classMap camel schema).isEmpty then [] else [classMethod]) := by
  have hname : startsWith "+ " (implementationLine schema) = false :=
    startsWith_implementationLine (by decide) schema
  have hkey : [keyMethod].filter (startsWith "+ ") = [keyMethod] := by decide
  have hclass : [classMethod].filter (startsWith "+ ") = [classMethod] := by decide
  rw [filter_implementationBlock (by decide) (by decide) (by decide) (by decide), hkey, hclass,
    List.filter_singleton, hname]
  simp

lemma mem_implementationBlock_iff_mem_methods {signature : String}
    (h : startsWith "+ " signature = true) (camel : Bool) (schema : Schema) :
    signature ∈ implementationBlock camel schema ↔
      signature ∈ (if (keyMap camel schema).isEmpty then [] else [keyMethod]) ++
        (if (classMap camel schema).isEmpty then [] else [classMethod]) := by
  rw [← filter_methods, List.mem_filter, and_iff_left h]

/-- There is a method for renamed properties exactly if there are any. -/
lemma keyMethod_mem_iff (camel : Bool) (schema : Schema) :
    keyMethod ∈ implementationBlock camel schema ↔
      ∃ field ∈ schema.fields, naming.renames camel field.key = true := by
  have hother : keyMethod ≠ classMethod := by decide
  have hempty : (keyMap camel schema).isEmpty = false ↔
      ∃ field ∈ schema.fields, naming.renames camel field.key = true := by
    simp [keyMap, ← List.any_eq_true]
  rw [mem_implementationBlock_iff_mem_methods (by decide), ← hempty]
  cases (keyMap camel schema).isEmpty <;> cases (classMap camel schema).isEmpty <;> simp [hother]

/-- There is a method for lists of objects exactly if there are any. -/
lemma classMethod_mem_iff (camel : Bool) (schema : Schema) :
    classMethod ∈ implementationBlock camel schema ↔
      ∃ field ∈ schema.fields, ∃ item, field.type = .list (.record item) := by
  have hother : classMethod ≠ keyMethod := by decide
  have hempty : (classMap camel schema).isEmpty = false ↔
      ∃ field ∈ schema.fields, ∃ item, field.type = .list (.record item) := by
    simp [classMap, ← itemClass?_eq_some_iff, Option.ne_none_iff_exists']
  rw [mem_implementationBlock_iff_mem_methods (by decide), ← hempty]
  cases (keyMap camel schema).isEmpty <;> cases (classMap camel schema).isEmpty <;> simp [hother]

end Target.ObjectiveC

end SampleTypes
