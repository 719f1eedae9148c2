import SampleTypes.Proofs.Name.Camel
import SampleTypes.Proofs.Schema.Reference
import SampleTypes.Target.Tokens

/-! Types inside lists. However many lists stand around a type, its spelling is one token with the
same text before and after it for each of them. What a language spells in another way inside lists
is the innermost token only, so nothing that a list cannot hold is ever the argument of one. -/
namespace SampleTypes

namespace FieldType

/-- A type inside so many lists. -/
def inLists (base : FieldType) : Nat → FieldType
  | 0 => base
  | d + 1 => list (base.inLists d)

/-- The types that lists hold in a type, from the outermost list to the innermost. -/
def arguments : FieldType → List FieldType
  | list element => element :: element.arguments
  | _ => []

lemma inLists_ne_any {base : FieldType} (h : base ≠ any) (d : Nat) : base.inLists d ≠ any := by
  cases d with
  | zero => exact h
  | succ d => exact FieldType.noConfusion

lemma inLists_list (base : FieldType) (d : Nat) : (list base).inLists d = base.inLists (d + 1) := by
  induction d with
  | zero => rfl
  | succ d ih => exact congrArg list ih

/-- What lists hold refers to what the whole type refers to. -/
lemma recordName?_of_mem_arguments {type argument : FieldType} (h : argument ∈ type.arguments) :
    argument.recordName? = type.recordName? := by
  induction type with
  | list element ih =>
    obtain rfl | h := List.mem_cons.mp h
    · rfl
    · exact ih h
  | _ => contradiction

/-- An object in a list is an item under its key. -/
lemma eq_itemName_of_mem_arguments {scope : NameScope} {enclosing key name : String} {v : Json}
    {argument : FieldType} (h : argument ∈ (ofMember scope enclosing key v).arguments)
    (hname : argument.recordName? = some name) : name = scope.itemName enclosing key := by
  rw [recordName?_of_mem_arguments h] at hname
  cases v with
  | array items =>
    have hitems : ofMember scope enclosing key (.array items) =
        ofItem (scope.itemName enclosing key) (.array items) := rfl
    rw [hitems, recordName?_ofItem] at hname
    obtain ⟨-, -, hitem⟩ := Option.map_eq_some_iff.mp hname
    exact hitem.symm
  | object members => contradiction
  | null => exact absurd ((recordName?_ofScalar .null).symm.trans hname) (by simp)
  | bool b => exact absurd ((recordName?_ofScalar (.bool b)).symm.trans hname) (by simp)
  | number n => exact absurd ((recordName?_ofScalar (.number n)).symm.trans hname) (by simp)
  | string s => exact absurd ((recordName?_ofScalar (.string s)).symm.trans hname) (by simp)

end FieldType

namespace Target.Tokens

/-- A text so many times. -/
def repeated (s : String) (d : Nat) : String := .join (List.replicate d s)

/-- A token with so many times one text before it and another one after it. -/
def nested (before token after : String) (d : Nat) : String :=
  repeated before d ++ token ++ repeated after d

lemma repeated_succ (s : String) (d : Nat) : repeated s (d + 1) = s ++ repeated s d := by
  rw [repeated, List.replicate_succ, String.join_cons, repeated]

lemma repeated_succ' (s : String) (d : Nat) : repeated s (d + 1) = repeated s d ++ s := by
  rw [repeated, List.replicate_succ', String.join_append, repeated]
  simp

lemma nested_zero (before token after : String) : nested before token after 0 = token := by
  simp [nested, repeated]

lemma nested_succ (before token after : String) (d : Nat) :
    nested before token after (d + 1) = before ++ nested before token after d ++ after := by
  simp only [nested, repeated_succ before, repeated_succ' after, String.append_assoc]

/-- Where lists are written with one text before their element and one after it, only the innermost
element can have a spelling for lists of its own. -/
lemma spell_inLists {t : Tokens} {base : FieldType} {before after : String}
    (hboxed : ∀ element, t.boxed (.list element) = none)
    (hlist : ∀ d, t.list (t.spellElement (base.inLists d)) =
      before ++ t.spellElement (base.inLists d) ++ after) (d : Nat) :
    t.spell (base.inLists d) =
      nested before (if d = 0 then t.spell base else t.spellElement base) after d := by
  cases d with
  | zero => exact (nested_zero _ _ _).symm
  | succ d =>
    rw [if_neg d.succ_ne_zero]
    induction d with
    | zero => rw [FieldType.inLists, spell_list, hlist, nested_succ, nested_zero, FieldType.inLists]
    | succ d ih =>
      have helement : t.spellElement (base.inLists (d + 1)) = t.spell (base.inLists (d + 1)) := by
        rw [spellElement, FieldType.inLists, hboxed, Option.getD_none]
      rw [FieldType.inLists, spell_list, hlist, helement, ih, nested_succ _ _ _ (d + 1)]

/-- Where there are no spellings for lists, a type has the same token inside lists and outside. -/
lemma spell_inLists_of_not_boxed {t : Tokens} {base : FieldType} {before after : String}
    (hboxed : ∀ type, t.boxed type = none)
    (hlist : ∀ d, t.list (t.spell (base.inLists d)) =
      before ++ t.spell (base.inLists d) ++ after) (d : Nat) :
    t.spell (base.inLists d) = nested before (t.spell base) after d := by
  have helement : ∀ type, t.spellElement type = t.spell type := by
    intro type
    rw [spellElement, hboxed, Option.getD_none]
  have hspell := spell_inLists (fun _ => hboxed _)
    (fun d => by rw [helement]; exact hlist d) d
  rwa [helement, ite_self] at hspell

/-! What lists hold. -/

/-- The types that a list cannot hold in Java. -/
def primitives : List String := ["boolean", "int", "double"]

/-- How Java spells a type that a list holds. -/
def boxedToken : FieldType → String
  | .bool => "Boolean"
  | .int => "Integer"
  | .float => "Double"
  | type => java.spell type

def optionalValue : String := "Option<serde_json::Value>"

/-- How Rust spells a type that a list holds. -/
def plainToken : FieldType → String
  | .any => "serde_json::Value"
  | type => rust.spell type

lemma spellElement_java (type : FieldType) : java.spellElement type = boxedToken type := by
  cases type <;> rfl

lemma spellElement_rust (type : FieldType) : rust.spellElement type = plainToken type := by
  cases type <;> rfl

/-- Only where nothing is known of the elements is a list bare. -/
lemma spell_objectiveC_ne {type : FieldType} (h : type ≠ .any) : objectiveC.spell type ≠ "id" := by
  intro hid
  cases type with
  | any => contradiction
  | list element =>
    have hhead := congrArg (fun s => s.toList.head?) hid
    simp only [spell, objectiveC] at hhead
    split at hhead
    · simp at hhead
    · simp at hhead
  | record name =>
    have hlast := congrArg (fun s => s.toList.getLast?) hid
    simp [spell, objectiveC] at hlast
  | _ => exact absurd hid (by decide)

/-- A generic type around an element has an angle bracket, which no primitive type has. -/
lemma generic_notMem_primitives (head element : String) : generic head element ∉ primitives := by
  intro h
  have hbracket : '>' ∈ (generic head element).toList := by simp [generic]
  have hnone : ∀ s ∈ primitives, '>' ∉ s.toList := by decide
  exact hnone _ h hbracket

/-- Only a definition of that name makes a list hold what looks like a primitive type. -/
lemma eq_record_of_mem_primitives {type : FieldType} (h : java.spellElement type ∈ primitives) :
    type = .record (java.spellElement type) := by
  rw [spellElement_java] at h ⊢
  cases type with
  | list element => exact absurd h (generic_notMem_primitives _ _)
  | record name => rfl
  | _ => exact absurd h (by decide)

lemma eq_record_of_optionalValue {type : FieldType} (h : rust.spellElement type = optionalValue) :
    type = .record optionalValue := by
  rw [spellElement_rust] at h
  cases type with
  | list element =>
    have hhead := congrArg (fun s => s.toList.head?) h
    simp [plainToken, spell, rust, generic, optionalValue] at hhead
  | record name => exact congrArg FieldType.record h
  | _ => exact absurd h (by decide)

end Target.Tokens

/-! Names in lists. -/

namespace Text

/-- Whether the images of a run are all before or all behind the underscore. -/
def runMissesUnderscore (run : Nat × Nat × Nat × Nat) : Bool :=
  run.2.2.2 + (run.2.1 - run.1) < 0x5F || 0x5F < run.2.2.2

lemma upper_missesUnderscore : upperRuns.all runMissesUnderscore = true ∧
    upperSequences.all (fun entry => !entry.2.contains 0x5F) = true := by decide +kernel

lemma ofNat_eq_underscore {n : Nat} (hvalid : n.isValidChar) (h : Char.ofNat n = '_') :
    n = 0x5F := by
  have hn := congrArg Char.toNat h
  rwa [Char.ofNat, dif_pos hvalid] at hn

/-- The underscore is the upper case of nothing else. -/
lemma eq_of_underscore_mem_upperChars {c : Char} (h : '_' ∈ upperChars c) : c = '_' := by
  rw [upperChars] at h
  split_ifs at h with hascii
  · rw [List.mem_singleton] at h
    exact forall_ascii (p := fun c => '_' = c.toUpper → c = '_') (by decide) hascii h
  · obtain ⟨ns, hlookup, hns⟩ | ⟨n, himage, hn⟩ | hself := recase_cases upperSequences upperRuns c
    · rw [hns] at h
      obtain ⟨n, hmem, hn⟩ := List.mem_map.mp h
      obtain ⟨-, himages⟩ := lookup_isAbove upper_isAbove.2 hlookup
      obtain rfl := ofNat_eq_underscore (himages n hmem).2 hn
      obtain ⟨l₁, l₂, heq, -⟩ := List.lookup_eq_some_iff.mp hlookup
      have hmisses := List.all_eq_true.mp upper_missesUnderscore.2 (c.toNat, ns) (by simp [heq])
      simp [hmem] at hmisses
    · rw [hn, List.mem_singleton] at h
      obtain rfl := ofNat_eq_underscore (isImage_imageIn upper_isAbove.1 himage).2 h.symm
      obtain ⟨⟨first, last, step, image⟩, hmem, hrun⟩ := List.exists_of_findSome?_eq_some himage
      have hmisses := List.all_eq_true.mp upper_missesUnderscore.1 _ hmem
      simp only [runMissesUnderscore, Bool.or_eq_true, decide_eq_true_eq] at hmisses
      simp only [Option.ite_none_right_eq_some, Option.some.injEq] at hrun
      omega
    · rw [hself, List.mem_singleton] at h
      exact h.symm

end Text

namespace Name

open Text

/-- No underscore stands directly before a small letter. -/
def IsUnbroken (cs : List Char) : Prop := cs.IsChain fun c d => c = '_' → d.isLower = false

variable {cs before : List Char}

lemma IsUnbroken.append (hbefore : IsUnbroken before) (hcs : IsUnbroken cs)
    (h : '_' ∉ before ∨ ∀ d ∈ cs.head?, d.isLower = false) : IsUnbroken (before ++ cs) := by
  refine List.isChain_append.mpr ⟨hbefore, hcs, fun c hc d hd hunderscore => ?_⟩
  subst hunderscore
  obtain hnone | hhead := h
  · exact absurd (List.mem_of_getLast? hc) hnone
  · exact hhead d hd

lemma isUnbroken_of_notMem (h : '_' ∉ cs) : IsUnbroken cs := by
  refine List.isChain_iff_forall_rel_of_append_cons_cons.mpr ?_
  rintro c d l₁ l₂ rfl rfl
  simp at h

lemma isUnbroken_type (key : String) : IsUnbroken (type key).toList := by
  have hcamel : IsUnbroken (camelCase key).toList := by
    refine (isJoined_camelCase key).imp fun c d hcd hunderscore => ?_
    subst hunderscore
    by_contra hlower
    have halnum := isAlphanum_of_isLower (Bool.not_eq_false _ ▸ hlower)
    rw [hcd rfl] at halnum
    contradiction
  rw [type, capitalize, String.toList_ofList]
  cases hcs : (camelCase key).toList with
  | nil => exact List.isChain_nil
  | cons c cs =>
    rw [hcs] at hcamel
    rw [capitalChars]
    by_cases hc : c = '_'
    · subst hc
      exact hcamel
    · have hnone : '_' ∉ upperChars c := fun h => hc (eq_of_underscore_mem_upperChars h)
      exact (isUnbroken_of_notMem hnone).append hcamel.tail (Or.inl hnone)

lemma isUnbroken_itemName (enclosing key : String) :
    IsUnbroken (NameScope.bare.itemName enclosing key).toList := by
  rw [NameScope.itemName, String.toList_append]
  exact (isUnbroken_type key).append (isUnbroken_of_notMem (by decide)) (Or.inr (by simp))

end Name

namespace Target.Tokens

open FieldType Name

lemma spellElement_rust_list (element : FieldType) : (rust.spellElement (.list element)).toList =
    "Vec<".toList ++ (rust.spellElement element).toList ++ ">".toList := by
  have hlist :
      rust.spellElement (.list element) = "Vec" ++ "<" ++ rust.spellElement element ++ ">" :=
    rfl
  simp [hlist]

/-- Without a definition, a list holds nothing optional: there is no capital letter for it. -/
lemma optional_notMem_spellElement {type : FieldType} (h : type.recordName? = none) :
    'O' ∉ (rust.spellElement type).toList := by
  induction type with
  | list element ih =>
    rw [spellElement_rust_list]
    simpa using ih h
  | record name => contradiction
  | _ => decide

lemma isUnbroken_spellElement {type : FieldType} {name : String} (h : type.recordName? = some name)
    (hname : IsUnbroken name.toList) : IsUnbroken (rust.spellElement type).toList := by
  induction type with
  | list element ih =>
    rw [spellElement_rust_list, List.append_assoc]
    refine (isUnbroken_of_notMem (by decide)).append ?_ (Or.inl (by decide))
    exact (ih h).append (isUnbroken_of_notMem (by decide)) (Or.inr (by simp))
  | record n => rwa [← Option.some.inj h] at hname
  | _ => contradiction

/-- In the types of samples nothing optional stands in a list, not even in the name of a
definition. -/
lemma optionalValue_not_infix {enclosing key : String} {v : Json} {argument : FieldType}
    (h : argument ∈ (ofMember .bare enclosing key v).arguments) :
    ¬optionalValue.toList <:+: (rust.spellElement argument).toList := by
  intro hinside
  cases hname : argument.recordName? with
  | none =>
    have hcapital : 'O' ∈ optionalValue.toList := by decide
    exact optional_notMem_spellElement hname (hinside.subset hcapital)
  | some name =>
    have hitem := isUnbroken_itemName enclosing key
    rw [← eq_itemName_of_mem_arguments h hname] at hitem
    have hunbroken : IsUnbroken optionalValue.toList :=
      List.IsChain.infix (isUnbroken_spellElement hname hitem) hinside
    exact absurd hunbroken (by unfold IsUnbroken; decide)

/-- In the types of samples no list holds a primitive type, nor a definition of such a name. -/
lemma notMem_primitives {scope : NameScope} {enclosing key : String} {v : Json}
    {argument : FieldType} (h : argument ∈ (ofMember scope enclosing key v).arguments) :
    java.spellElement argument ∉ primitives := by
  intro hprimitive
  have hrecord := eq_record_of_mem_primitives hprimitive
  have hname : argument.recordName? = some (java.spellElement argument) := by
    conv_lhs => rw [hrecord]
    rfl
  rw [eq_itemName_of_mem_arguments h hname] at hprimitive
  have hlast : ∀ s ∈ primitives, s.toList.getLast? ≠ some 'm' := by decide
  refine hlast _ hprimitive ?_
  simp [NameScope.itemName]

/-- A type in so many lists is spelled as one token, that of the type, between as many wrappers of
the language. In lists Java has a boxed token and Rust a plain one, and a list of which nothing is
known is bare in Objective-C. So what a list holds is no primitive type in Java and not optional
in Rust, but for a definition of such a name, and among the types of samples there is none. -/
theorem spelled_in_lists (base : FieldType) (d : Nat) :
    swift.spell (base.inLists d) = nested "[" (swift.spell base) "]" d ∧
    kotlin.spell (base.inLists d) = nested "List<" (kotlin.spell base) ">" d ∧
    typeScript.spell (base.inLists d) = nested "" (typeScript.spell base) "[]" d ∧
    go.spell (base.inLists d) = nested "[]" (go.spell base) "" d ∧
    cSharp.spell (base.inLists d) = nested "List<" (cSharp.spell base) ">" d ∧
    dart.spell (base.inLists d) = nested "List<" (dart.spell base) ">" d ∧
    java.spell (base.inLists d) =
      nested "List<" (if d = 0 then java.spell base else boxedToken base) ">" d ∧
    rust.spell (base.inLists d) =
      nested "Vec<" (if d = 0 then rust.spell base else plainToken base) ">" d ∧
    (base ≠ .any → objectiveC.spell (base.inLists d) =
      nested "NSArray<" (objectiveC.spell base) "> *" d) ∧
    objectiveC.spell .any = "id" ∧
    objectiveC.spell (FieldType.any.inLists (d + 1)) = nested "NSArray<" "NSArray *" "> *" d ∧
    (∀ type : FieldType, ∀ argument ∈ type.arguments,
      (java.spellElement argument ∈ primitives →
        argument = .record (java.spellElement argument)) ∧
      (rust.spellElement argument = optionalValue → argument = .record optionalValue)) ∧
    (∀ scope name members, ∀ field ∈ (Schema.ofMembers scope name members).fields,
      ∀ argument ∈ field.type.arguments, java.spellElement argument ∉ primitives) ∧
    ∀ name members, ∀ field ∈ (Schema.ofMembers .bare name members).fields,
      ∀ argument ∈ field.type.arguments,
        ¬optionalValue.toList <:+: (rust.spellElement argument).toList := by
  have hnone : ∀ type : FieldType, (none : Option String) = none := fun _ => rfl
  have hjava : ∀ d, java.spell (base.inLists d) =
      nested "List<" (if d = 0 then java.spell base else java.spellElement base) ">" d :=
    spell_inLists (fun _ => rfl) fun _ => rfl
  have hrust : ∀ d, rust.spell (base.inLists d) =
      nested "Vec<" (if d = 0 then rust.spell base else rust.spellElement base) ">" d :=
    spell_inLists (fun _ => rfl) fun _ => rfl
  refine ⟨spell_inLists_of_not_boxed hnone (fun _ => rfl) d,
    spell_inLists_of_not_boxed hnone (fun _ => rfl) d,
    spell_inLists_of_not_boxed hnone (fun _ => ?_) d,
    spell_inLists_of_not_boxed hnone (fun _ => ?_) d,
    spell_inLists_of_not_boxed hnone (fun _ => rfl) d,
    spell_inLists_of_not_boxed hnone (fun _ => rfl) d, ?_, ?_, fun hbase => ?_, rfl, ?_, ?_, ?_, ?_⟩
  · rw [String.empty_append]
    rfl
  · rw [String.append_empty]
    rfl
  · rw [hjava, spellElement_java]
  · rw [hrust, spellElement_rust]
  · exact spell_inLists_of_not_boxed hnone
      (fun d => if_neg (spell_objectiveC_ne (FieldType.inLists_ne_any hbase d))) d
  · rw [← FieldType.inLists_list]
    exact spell_inLists_of_not_boxed hnone (fun d => if_neg (spell_objectiveC_ne
      (FieldType.inLists_ne_any FieldType.noConfusion d))) d
  · exact fun _ _ _ => ⟨eq_record_of_mem_primitives, eq_record_of_optionalValue⟩
  · intro scope name members field hfield argument hargument
    obtain ⟨m, -, rfl⟩ := List.mem_map.mp hfield
    exact notMem_primitives hargument
  · intro name members field hfield argument hargument
    obtain ⟨m, -, rfl⟩ := List.mem_map.mp hfield
    exact optionalValue_not_infix hargument

/-- Two lists around whole numbers, texts and nothing known, and a list of objects under a key
that is spelled like what lists cannot hold. -/
theorem spelled_in_lists_twice :
    java.spell (.list (.list .int)) = "List<List<Integer>>" ∧
    rust.spell (.list (.list .any)) = "Vec<Vec<serde_json::Value>>" ∧
    objectiveC.spell (.list (.list .string)) = "NSArray<NSArray<NSString *> *> *" ∧
    objectiveC.spell (.list (.list .any)) = "NSArray<NSArray *> *" ∧
    java.spellElement (.record "int") ∈ primitives ∧
    FieldType.record "int" = .record (java.spellElement (.record "int")) ∧
    (let members : Members := [("Option<serde_json::Value>", .array [.object []])]
      let argument := FieldType.record "Option<serdeJson::Value>Item"
      ⟨"Option<serde_json::Value>", .list argument⟩ ∈
        (Schema.ofMembers .bare "Root" members).fields ∧
      java.spellElement argument ∉ primitives ∧
      ¬optionalValue.toList <:+: (rust.spellElement argument).toList) := by
  obtain ⟨-, -, -, -, -, -, hjava, -⟩ := spelled_in_lists .int 2
  obtain ⟨-, -, -, -, -, -, -, hrust, -⟩ := spelled_in_lists .any 2
  obtain ⟨-, -, -, -, -, -, -, -, htexts, -⟩ := spelled_in_lists .string 2
  obtain ⟨-, -, -, -, -, -, -, -, -, -, hbare, hnames, hfields, hoptional⟩ :=
    spelled_in_lists .any 1
  have hprimitive : java.spellElement (.record "int") ∈ primitives := by decide
  have hrecord := (hnames (.list (.record "int")) _ List.mem_cons_self).1 hprimitive
  have hfield :
      (⟨"Option<serde_json::Value>", .list (.record "Option<serdeJson::Value>Item")⟩ : Field) ∈
      (Schema.ofMembers .bare "Root"
        [("Option<serde_json::Value>", .array [.object []])]).fields := by decide +kernel
  refine ⟨hjava.trans (by decide), hrust.trans (by decide), (htexts (by decide)).trans (by decide),
    hbare.trans (by decide), hprimitive, hrecord, hfield,
    hfields _ _ _ _ hfield _ List.mem_cons_self, hoptional _ _ _ hfield _ List.mem_cons_self⟩

end Target.Tokens

end SampleTypes
