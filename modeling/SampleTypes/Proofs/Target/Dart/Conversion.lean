import SampleTypes.Proofs.Schema.Reference
import SampleTypes.Proofs.Target.Dart.Syntax

/-! What the expressions of a Dart class compute. A field that refers to a class is converted at
the depth of its type, in both directions, as long as there is at most one list around the class;
further inside lists both directions leave all values as they are. -/
namespace SampleTypes.Target.Dart

/-- Values, over the objects of all classes. -/
inductive Value (Obj : Type) where
  | null
  | bool (b : Bool)
  | number (n : Number)
  | string (s : String)
  | list (vs : List (Value Obj))
  | map (ms : List (String × Value Obj))
  | object (o : Obj)

/-- What classes and numbers do when code runs. Here and below, nothing stands for an error. -/
structure Interpretation (Obj : Type) where
  /-- The object that a class makes of a map. -/
  construct : String → List (String × Value Obj) → Option Obj
  /-- The map that an object is written to. -/
  write : Obj → Option (List (String × Value Obj))
  toDouble : Number → Number

/-- What names stand for. -/
abbrev Environment (Obj : Type) := String → Option (Value Obj)

variable {Obj : Type}

namespace Value

/-- Keeps null, and applies to any other value. -/
def orNull (f : Value Obj → Option (Value Obj)) : Value Obj → Option (Value Obj)
  | null => some null
  | v => f v

def each (f : Value Obj → Option (Value Obj)) : Value Obj → Option (Value Obj)
  | list vs => (vs.mapM f).map list
  | _ => none

/-- Applies inside so many lists. -/
def atDepth (f : Value Obj → Option (Value Obj)) : Nat → Value Obj → Option (Value Obj)
  | 0 => f
  | n + 1 => each (atDepth f n)

def list? : Value Obj → Option (Value Obj)
  | list vs => some (list vs)
  | _ => none

/-- What a map has under a key; null where the key is missing. -/
def entry? (key : String) : Value Obj → Option (Value Obj)
  | map ms => some ((ms.lookup key).getD null)
  | _ => none

/-- A value as the only element of lists in each other. -/
def inLists : Nat → Value Obj → Value Obj
  | 0, v => v
  | n + 1, v => list [inLists n v]

lemma inLists_injective (n : Nat) :
    Function.Injective (inLists n : Value Obj → Value Obj) := by
  induction n with
  | zero => exact Function.injective_id
  | succ n ih =>
    intro v w h
    apply ih
    simpa [inLists] using h

lemma atDepth_inLists {f : Value Obj → Option (Value Obj)} {v w : Value Obj} (h : f v = some w)
    (n : Nat) : atDepth f n (inLists n v) = some (inLists n w) := by
  induction n with
  | zero => exact h
  | succ n ih => simp [atDepth, inLists, each, ih]

end Value

namespace Interpretation

variable (r : Interpretation Obj)

def double : Value Obj → Option (Value Obj)
  | .number n => some (.number (r.toDouble n))
  | _ => none

def fromJson (type : String) : Value Obj → Option (Value Obj)
  | .map ms => (r.construct type ms).map .object
  | _ => none

def toJson : Value Obj → Option (Value Obj)
  | .object o => (r.write o).map .map
  | _ => none

end Interpretation

/-- The value of an expression, as long as none of its parts fails. -/
def Expr.eval (r : Interpretation Obj) : Expr → Environment Obj → Option (Value Obj)
  | name x, env => env x
  | emptyMap, _ => some (.map [])
  | entry map key, env => (map.eval r env).bind (Value.entry? key)
  | toDouble value, env => (value.eval r env).bind (Value.orNull r.double)
  | asList value, env => (value.eval r env).bind (Value.orNull Value.list?)
  | cast list _, env => (list.eval r env).bind (Value.orNull Value.list?)
  | fromJson type map, env => (map.eval r env).bind (r.fromJson type)
  | toJson object nullable, env =>
    (object.eval r env).bind (if nullable then Value.orNull r.toJson else r.toJson)
  | unlessNull value result, env =>
    (value.eval r env).bind (Value.orNull fun _ => result.eval r env)
  | mapped list x result, env =>
    (list.eval r env).bind
      (Value.orNull (Value.each fun v => result.eval r (Function.update env x (some v))))

/-- A function on values that depends on what classes do. -/
abbrev Conversion := (Obj : Type) → Interpretation Obj → Value Obj → Option (Value Obj)

/-- Maps inside so many lists become objects of a class. -/
def readingAt (type : String) (depth : Nat) : Conversion :=
  fun _ r => Value.orNull (Value.atDepth (r.fromJson type) depth)

/-- Objects inside so many lists become maps. -/
def writingAt (depth : Nat) : Conversion := fun _ r => Value.orNull (Value.atDepth r.toJson depth)

def unconverted : Conversion := fun _ _ v => some v

/-- Whether a field is read by converting what the map has under its key. -/
def ReadsBy (field : Field) (f : Conversion) : Prop :=
  ∀ (Obj : Type) (r : Interpretation Obj) (env : Environment Obj) (ms : List (String × Value Obj)),
    env "json" = some (.map ms) →
      (reading field).eval r env = f Obj r ((ms.lookup field.key).getD .null)

/-- Whether a field is written by converting its value. -/
def WritesBy (type : FieldType) (x : String) (f : Conversion) : Prop :=
  ∀ (Obj : Type) (r : Interpretation Obj) (env : Environment Obj) (v : Value Obj),
    env x = some v → (writing type x).eval r env = f Obj r v

/-- A field is read in one way only. -/
lemma ReadsBy.eq {field : Field} {f g : Conversion} (hf : ReadsBy field f) (hg : ReadsBy field g) :
    f = g := by
  funext Obj r v
  have hlookup :
      (([(field.key, v)] : List (String × Value Obj)).lookup field.key).getD .null = v := by
    simp
  have heval := hf Obj r (fun _ => some (.map [(field.key, v)])) _ rfl
  rw [hg Obj r _ _ rfl, hlookup] at heval
  exact heval.symm

/-- And it is written in one way only. -/
lemma WritesBy.eq {type : FieldType} {x : String} {f g : Conversion} (hf : WritesBy type x f)
    (hg : WritesBy type x g) : f = g := by
  funext Obj r v
  have heval := hf Obj r (fun _ => some v) v rfl
  rw [hg Obj r _ v rfl] at heval
  exact heval.symm

/-- There is one object only, and it stands for every map. -/
def trivialInterpretation : Interpretation Unit where
  construct _ _ := some ()
  write _ := some []
  toDouble := id

/-- What converts some value to another does not leave lists around it as they are. -/
lemma orNull_atDepth_ne {f : Value Obj → Option (Value Obj)} {v w : Value Obj} (hf : f v = some w)
    (hne : v ≠ w) {depth : Nat} (hdepth : 2 ≤ depth) :
    Value.orNull (Value.atDepth f depth) (.inLists depth v) ≠ some (.inLists depth v) := by
  obtain ⟨n, rfl⟩ := Nat.exists_eq_add_of_le' hdepth
  have hconverted : Value.orNull (Value.atDepth f (n + 2)) (.inLists (n + 2) v) =
      some (.inLists (n + 2) w) := Value.atDepth_inLists hf (n + 2)
  rw [hconverted]
  intro h
  exact hne (Value.inLists_injective (n + 2) (Option.some.inj h)).symm

lemma readingAt_ne_unconverted (type : String) {depth : Nat} (hdepth : 2 ≤ depth) :
    readingAt type depth ≠ unconverted := by
  intro h
  have hread : trivialInterpretation.fromJson type (.map []) = some (.object ()) := rfl
  apply orNull_atDepth_ne hread nofun hdepth
  exact congrFun (congrFun (congrFun h Unit) trivialInterpretation) _

lemma writingAt_ne_unconverted {depth : Nat} (hdepth : 2 ≤ depth) :
    writingAt depth ≠ unconverted := by
  intro h
  have hwritten : trivialInterpretation.toJson (.object ()) = some (.map []) := rfl
  apply orNull_atDepth_ne hwritten nofun hdepth
  exact congrFun (congrFun (congrFun h Unit) trivialInterpretation) _

section Directions

variable (key name x : String)

lemma reads_record : ReadsBy ⟨key, .record name⟩ (readingAt name 0) := by
  intro Obj r env ms henv
  simp only [reading, Expr.eval, henv, Option.bind_some, Value.entry?, readingAt, Value.atDepth]
  cases (ms.lookup key).getD .null <;> rfl

lemma writes_record : WritesBy (.record name) x (writingAt 0) := by
  intro Obj r env v henv
  simp only [writing, Expr.eval, henv, Option.bind_some, if_true, writingAt, Value.atDepth]

lemma reads_list_record : ReadsBy ⟨key, .list (.record name)⟩ (readingAt name 1) := by
  intro Obj r env ms henv
  simp only [reading, Expr.eval, henv, Option.bind_some, Value.entry?, readingAt, Value.atDepth,
    Function.update_self]
  cases (ms.lookup key).getD .null <;> rfl

lemma writes_list_record : WritesBy (.list (.record name)) x (writingAt 1) := by
  intro Obj r env v henv
  simp only [writing, Expr.eval, henv, Option.bind_some, writingAt, Value.atDepth,
    Function.update_self, Bool.false_eq_true, if_false]

variable (type : FieldType)

lemma reads_list_list : ReadsBy ⟨key, .list (.list type)⟩ unconverted := by
  intro Obj r env ms henv
  simp only [reading, Expr.eval, henv, Option.bind_some, Value.entry?, unconverted]

lemma writes_list_list : WritesBy (.list (.list type)) x unconverted := by
  intro Obj r env v henv
  simp only [writing, Expr.eval, henv, unconverted]

end Directions

section Fields

variable {type : FieldType} {name : String} (h : type.recordName? = some name)

include h

/-- What refers to a class is the class, a list of its objects, or lists in a list. -/
lemma record_or_list : type = .record name ∨ type = .list (.record name) ∨
    ∃ inner : FieldType, type = .list (.list inner) ∧ ¬type.layers ≤ 1 := by
  cases type with
  | record _ =>
    cases h
    exact Or.inl rfl
  | list element =>
    cases element with
    | record _ =>
      cases h
      exact Or.inr (Or.inl rfl)
    | list inner => exact Or.inr (Or.inr ⟨inner, rfl, by simp [FieldType.layers]⟩)
    | _ => contradiction
  | _ => contradiction

/-- What refers to a class through one list at most is converted, and nothing else is. -/
lemma reads_by_layers (key : String) : ReadsBy ⟨key, type⟩
    (if type.layers ≤ 1 then readingAt name type.layers else unconverted) := by
  rcases record_or_list h with rfl | rfl | ⟨inner, rfl, hlayers⟩
  · exact reads_record key name
  · exact reads_list_record key name
  · rw [if_neg hlayers]
    exact reads_list_list key inner

lemma writes_by_layers (x : String) :
    WritesBy type x (if type.layers ≤ 1 then writingAt type.layers else unconverted) := by
  rcases record_or_list h with rfl | rfl | ⟨inner, rfl, hlayers⟩
  · exact writes_record name x
  · exact writes_list_record name x
  · rw [if_neg hlayers]
    exact writes_list_list x inner

lemma readsBy_iff (key : String) :
    ReadsBy ⟨key, type⟩ (readingAt name type.layers) ↔ type.layers ≤ 1 := by
  have hlayers := reads_by_layers h key
  by_cases hdepth : type.layers ≤ 1
  · rw [if_pos hdepth] at hlayers
    exact iff_of_true hlayers hdepth
  · rw [if_neg hdepth] at hlayers
    refine iff_of_false (fun hreads => ?_) hdepth
    exact readingAt_ne_unconverted name (Nat.not_le.mp hdepth) (hreads.eq hlayers)

lemma writesBy_iff (x : String) :
    WritesBy type x (writingAt type.layers) ↔ type.layers ≤ 1 := by
  have hlayers := writes_by_layers h x
  by_cases hdepth : type.layers ≤ 1
  · rw [if_pos hdepth] at hlayers
    exact iff_of_true hlayers hdepth
  · rw [if_neg hdepth] at hlayers
    refine iff_of_false (fun hwrites => ?_) hdepth
    exact writingAt_ne_unconverted (Nat.not_le.mp hdepth) (hwrites.eq hlayers)

end Fields

/-- Code for a sample is that of the classes of its objects. Where the type of a field refers to a
class, this is the class of an object that stands inside as many arrays of the sample as the type
has lists. The class of the field reads it and writes it by converting what stands inside these
lists, exactly if there is at most one of them; otherwise no value is converted, in either
direction. -/
theorem converted_iff_layers_le_one {sample : Json} {object : Members}
    (hobject : sample.described? = some object) (root : String) (camel : Bool) :
    let classOf := fun d : String × Members => Class.ofSchema camel (.ofMembers .bare d.1 d.2)
    let ds := definedObjects .bare (Name.type root) object
    Language.dart.generate sample root camel = "\n".intercalate (classLines (ds.map classOf)) ∧
      ∀ d ∈ ds, ∀ m ∈ d.2, ∀ name, (FieldType.ofMember .bare d.1 m.1 m.2).recordName? = some name →
        let field : Field := ⟨m.1, .ofMember .bare d.1 m.1 m.2⟩
        let x := naming.fieldName camel m.1
        let depth := field.type.layers
        (∃ nested, (name, nested) ∈ ds ∧ m.2.inside? depth = some (.object nested)) ∧
        .assign (.name x) (reading field) ∈ (classOf d).reader.body ∧
        .assign (.entry (.name "data") m.1) (writing field.type x) ∈ (classOf d).writer.body ∧
        (ReadsBy field (readingAt name depth) ↔ depth ≤ 1) ∧
        (WritesBy field.type x (writingAt depth) ↔ depth ≤ 1) ∧
        (2 ≤ depth → ReadsBy field unconverted ∧ WritesBy field.type x unconverted) := by
  intro classOf ds
  refine ⟨generate_eq_classes hobject root camel, ?_⟩
  intro d hd m hm name hname field x depth
  have hfield : field ∈ (Schema.ofMembers .bare d.1 d.2).fields :=
    List.mem_map.mpr ⟨m, hm, rfl⟩
  have hnested : ∃ nested, (name, nested) ∈ ds ∧ m.2.inside? depth = some (.object nested) := by
    obtain ⟨nested, hnested, hinside⟩ := Schema.exists_nested hname
    refine ⟨nested, ?_, hinside⟩
    apply mem_definedObjects_of_nested (d := (Name.type root, object)) hd
    exact List.mem_filterMap.mpr ⟨m, hm, hnested⟩
  have hreads := Class.assign_reading_mem camel hfield
  have hwrites := Class.assign_writing_mem camel hfield
  refine ⟨hnested, hreads, hwrites, readsBy_iff hname m.1, writesBy_iff hname x, ?_⟩
  intro hdepth
  have hread := reads_by_layers hname m.1
  have hwritten := writes_by_layers hname x
  rw [if_neg (Nat.not_le.mpr hdepth)] at hread hwritten
  exact ⟨hread, hwritten⟩

/-- A list of objects is converted element by element. -/
theorem converted_iff_layers_le_one_list :
    let object : Members := [("pets", .array [.object [("age", .number (.int 1))]])]
    let pets : Field := ⟨"pets", .list (.record "PetsItem")⟩
    ((Json.object object).described? = some object ∧
      ("Root", object) ∈ definedObjects .bare (Name.type "root") object ∧
      ("pets", .array [.object [("age", .number (.int 1))]]) ∈ object ∧
      pets.type.recordName? = some "PetsItem") ∧
    ReadsBy pets (readingAt "PetsItem" 1) ∧ WritesBy pets.type "pets" (writingAt 1) := by
  intro object pets
  have hobject : (Json.object object).described? = some object := rfl
  have hroot : Name.type "root" = "Root" := by decide +kernel
  have hdefined : ("Root", object) ∈ definedObjects .bare (Name.type "root") object := by
    rw [hroot]
    exact List.mem_cons_self
  have hmember : ("pets", Json.array [.object [("age", .number (.int 1))]]) ∈ object :=
    List.mem_cons_self
  have htype :
      FieldType.ofMember .bare "Root" "pets" (.array [.object [("age", .number (.int 1))]]) =
      pets.type := by decide +kernel
  have hname : naming.fieldName true "pets" = "pets" := by decide +kernel
  have hall := (converted_iff_layers_le_one hobject "root" true).2 _ hdefined _ hmember "PetsItem"
  rw [htype, hname] at hall
  obtain ⟨-, -, -, hreads, hwrites, -⟩ := hall rfl
  exact ⟨⟨hobject, hdefined, hmember, rfl⟩, hreads.mpr le_rfl, hwrites.mpr le_rfl⟩

/-- Lists in a list are typed down to the class, and a class is there, but nothing calls it. -/
theorem objects_in_inner_lists_stay_maps :
    let inner : Json := .array [.array [.object [("a", .number (.int 1))]]]
    let field : Field := ⟨"x", .ofMember .bare "Root" "x" inner⟩
    Language.dart.generate (.object [("x", inner)]) "Root" true = "\n".intercalate [
        "class Root \x7b", "  List<List<XItem>>? x;", "",
        "  Root.fromJson(Map<String, dynamic> json) \x7b", "    x = json['x'];", "  \x7d", "",
        "  Map<String, dynamic> toJson() \x7b", "    final data = <String, dynamic>\x7b\x7d;",
        "    data['x'] = x;", "    return data;", "  \x7d", "\x7d", "",
        "class XItem \x7b", "  int? a;", "",
        "  XItem.fromJson(Map<String, dynamic> json) \x7b", "    a = json['a'];", "  \x7d", "",
        "  Map<String, dynamic> toJson() \x7b", "    final data = <String, dynamic>\x7b\x7d;",
        "    data['a'] = a;", "    return data;", "  \x7d", "\x7d"] ∧
      field.type = .list (.list (.record "XItem")) ∧
      ¬ReadsBy field (readingAt "XItem" 2) ∧ ¬WritesBy field.type "x" (writingAt 2) := by
  intro inner field
  have htype : field.type = .list (.list (.record "XItem")) := by decide +kernel
  have hname : field.type.recordName? = some "XItem" := by
    rw [htype]
    rfl
  have hlayers : field.type.layers = 2 := by
    rw [htype]
    rfl
  have hreads := readsBy_iff hname "x"
  have hwrites := writesBy_iff hname "x"
  rw [hlayers] at hreads hwrites
  refine ⟨?_, htype, hreads.not.mpr (by omega), hwrites.not.mpr (by omega)⟩
  decide +kernel

end SampleTypes.Target.Dart
