import Mathlib.Data.List.TakeWhile
import SampleTypes.Proofs.Target.Go.Tag

/-! The names under which Go writes fields as JSON. A tag is more than a name there: options
follow a comma, a hyphen alone leaves the field out, and a name with other characters than its own
is passed over. So only those keys name their fields that mean nothing else in a tag. -/
namespace SampleTypes.Target.Go

open Layout

/-- The characters of names in tags, besides letters and digits. -/
def nameMarks : List Char := "!#$%&()*+-./:;<=>?@[]^_\x7b|\x7d~ ".toList

/-- Whether a tag can give this name, for the letters and digits that names are made of. -/
def isName (isWord : Char → Bool) (name : String) : Bool :=
  !name.isEmpty && name.toList.all fun c => isWord c || nameMarks.contains c

/-- The name in the value of a tag, before its options. -/
def beforeOptions (value : String) : String := .ofList (value.toList.takeWhile (· ≠ ','))

/-- The name under which a field with this tag is written: the name in the tag if that is one, or
else that of the field itself. A field whose tag is a hyphen is not written. -/
def jsonName? (isWord : Char → Bool) (field literal : String) : Option String :=
  match tagValue? "json" literal with
  | none => some field
  | some value =>
    if value = "-" then none
    else if isName isWord (beforeOptions value) then some (beforeOptions value)
    else some field

/-- Letters and digits, which in ASCII are its own. -/
def AreWordChars (isWord : Char → Bool) : Prop :=
  ∀ c : Char, c.toNat < 0x80 → isWord c = c.isAlphanum

section Names

variable {isWord : Char → Bool}

/-- The tag of a key has the key for its value. -/
lemma jsonName?_tag (field key : String) : jsonName? isWord field (tag key) =
    if key = "-" then none
    else if isName isWord (beforeOptions key) then some (beforeOptions key)
    else some field := by
  rw [jsonName?, tagValue?_tag]

lemma ne_comma_of_isName (hword : AreWordChars isWord) {name : String}
    (h : isName isWord name = true) : ∀ c ∈ name.toList, c ≠ ',' := by
  have hcomma : isWord ',' = false := hword ',' (by decide)
  have hmark : nameMarks.contains ',' = false := by decide
  rintro c hc rfl
  have hall := List.all_eq_true.mp (Bool.and_eq_true_iff.mp h).2 ',' hc
  rw [hcomma, hmark] at hall
  contradiction

/-- A name has no options behind it. -/
lemma beforeOptions_of_isName (hword : AreWordChars isWord) {name : String}
    (h : isName isWord name = true) : beforeOptions name = name := by
  have hall : ∀ c ∈ name.toList, decide (c ≠ ',') = true := fun c hc =>
    decide_eq_true (ne_comma_of_isName hword h c hc)
  rw [beforeOptions, List.takeWhile_eq_self_iff.mpr hall, String.ofList_toList]

/-- A key names its field if it is a name, or if the tag gives none and the field has the key for
its own name. -/
lemma jsonName?_tag_eq_some_iff (hword : AreWordChars isWord) (field key : String) :
    jsonName? isWord field (tag key) = some key ↔ key ≠ "-" ∧
      (isName isWord key = true ∨ isName isWord (beforeOptions key) = false ∧ field = key) := by
  rw [jsonName?_tag]
  by_cases hhyphen : key = "-"
  · simp [hhyphen]
  rw [if_neg hhyphen, and_iff_right hhyphen]
  cases hbefore : isName isWord (beforeOptions key) with
  | true =>
    simp only [if_true, Option.some.injEq, Bool.true_eq_false, false_and, or_false]
    constructor
    · intro heq
      rwa [heq] at hbefore
    · exact beforeOptions_of_isName hword
  | false =>
    have hkey : isName isWord key = false := by
      by_contra h
      rw [Bool.not_eq_false] at h
      rw [beforeOptions_of_isName hword h, h] at hbefore
      contradiction
    simp [hkey]

lemma jsonName?_tag_eq_none_iff (field key : String) :
    jsonName? isWord field (tag key) = none ↔ key = "-" := by
  rw [jsonName?_tag]
  split_ifs with hhyphen <;> simp [hhyphen]

end Names

/-- Every field of an object stands in the code, with a tag that has its key for its value. Go
writes the field under this key just if the key is a name other than a hyphen, or gives no name at
all and is the name of the field itself; a hyphen alone leaves the field out. -/
theorem written_under_key_iff {isWord : Char → Bool} (hword : AreWordChars isWord) {sample : Json}
    {object : Members} (hobject : sample.described? = some object) (root : String) (camel : Bool) :
    ∀ d ∈ definedObjects .bare (Name.type root) object,
    ∀ field ∈ (Schema.ofMembers .bare d.1 d.2).fields,
      let key := field.key
      let name := Convention.go.fieldName camel key
      ("\t" ++ (name ++ " " ++ Tokens.go.spell field.type ++ " " ++ tag key)).toList <:+:
        (Language.go.generate sample root camel).toList ∧
      tagValue? "json" (tag key) = some key ∧
      (jsonName? isWord name (tag key) = some key ↔ key ≠ "-" ∧
        (isName isWord key = true ∨ isName isWord (beforeOptions key) = false ∧ name = key)) ∧
      (jsonName? isWord name (tag key) = none ↔ key = "-") := by
  intro d hd field hfield key name
  refine ⟨fieldLine_infix_generate hobject root camel hd hfield, tagValue?_tag key, ?_, ?_⟩
  · exact jsonName?_tag_eq_some_iff hword name key
  · exact jsonName?_tag_eq_none_iff name key

lemma areWordChars_isAlphanum : AreWordChars Char.isAlphanum := fun _ _ => rfl

/-- A name, a name with options, and a key that no tag can give. -/
theorem written_under_key_iff_options :
    let object : Members := [("user_id", .null), ("a,b", .null), ("it's", .null)]
    let written := fun key => jsonName? Char.isAlphanum (Convention.go.fieldName true key) (tag key)
    (AreWordChars Char.isAlphanum ∧ (Json.object object).described? = some object) ∧
    written "user_id" = some "user_id" ∧ written "a,b" ≠ some "a,b" ∧
    written "it's" ≠ some "it's" := by
  intro object written
  have hall := @written_under_key_iff Char.isAlphanum areWordChars_isAlphanum
    (.object object) object
    rfl "Root" true
  have hroot : (Name.type "Root", object) ∈ definedObjects .bare (Name.type "Root") object :=
    List.mem_cons_self
  have hwritten : ∀ key ∈ object.keys, written key = some key ↔ key ≠ "-" ∧
      (isName Char.isAlphanum key = true ∨ isName Char.isAlphanum (beforeOptions key) = false ∧
        Convention.go.fieldName true key = key) := by
    intro key hkey
    obtain ⟨m, hm, rfl⟩ := List.mem_map.mp hkey
    exact (hall _ hroot _ (List.mem_map_of_mem hm)).2.2.1
  refine ⟨⟨areWordChars_isAlphanum, rfl⟩, ?_, ?_, ?_⟩
  · exact (hwritten _ (by decide)).mpr (by decide +kernel)
  · exact (hwritten _ (by decide)).not.mpr (by decide +kernel)
  · exact (hwritten _ (by decide)).not.mpr (by decide +kernel)

/-- A key that is a hyphen, and the code for it. -/
theorem hyphen_field_is_left_out :
    Language.go.generate (.object [("-", .number (.int 1))]) "Root" true =
      "type Root struct \x7b\n\t- int `json:\"-\"`\n\x7d" ∧
    tag "-" = "`json:\"-\"`" ∧ tagValue? "json" (tag "-") = some "-" ∧
    jsonName? Char.isAlphanum (Convention.go.fieldName true "-") (tag "-") = none := by
  refine ⟨by decide +kernel, by decide +kernel, tagValue?_tag "-", ?_⟩
  exact (jsonName?_tag_eq_none_iff _ "-").mpr rfl

end SampleTypes.Target.Go
