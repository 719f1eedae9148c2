import Mathlib.Data.List.TakeWhile
import SampleTypes.Generate
import SampleTypes.Proofs.Name.Camel

/-! Identifiers and the names made of them. All characters of such a name are those of identifiers
again, but camel case takes underscores away before a digit too, and where they stood in front,
the name begins with the digit. -/
namespace SampleTypes

namespace Name

open Text

/-- Whether a digit follows the underscores in front, of which there may be none. -/
def hidesDigit (key : String) : Bool := (key.toList.dropWhile (· = '_')).head?.any Char.isDigit

section Characters

variable {c : Char}

lemma toNat_lt_of_isIdentifierRest (h : isIdentifierRest c = true) : c.toNat < 0x80 := by
  simp only [isIdentifierRest, Bool.or_eq_true, decide_eq_true_eq] at h
  rcases h with (halnum | rfl) | rfl
  · exact toNat_lt_of_isAlphanum halnum
  · decide
  · decide

/-- An identifier may have any of its characters in front but a digit. -/
lemma isIdentifierStart_eq (h : isIdentifierRest c = true) : isIdentifierStart c = !c.isDigit := by
  refine @forall_ascii (fun c => isIdentifierRest c = true → isIdentifierStart c = !c.isDigit) ?_ _
    (toNat_lt_of_isIdentifierRest h) h
  decide

/-- Case makes no difference to the characters of identifiers, nor to digits. -/
lemma isIdentifierRest_toUpper (h : isIdentifierRest c = true) :
    isIdentifierRest c.toUpper = true ∧ c.toUpper.isDigit = c.isDigit := by
  refine @forall_ascii (fun c => isIdentifierRest c = true →
    isIdentifierRest c.toUpper = true ∧ c.toUpper.isDigit = c.isDigit) ?_ _
    (toNat_lt_of_isIdentifierRest h) h
  decide

lemma isIdentifierRest_toLower (h : isIdentifierRest c = true) :
    isIdentifierRest c.toLower = true ∧ c.toLower.isDigit = c.isDigit := by
  refine @forall_ascii (fun c => isIdentifierRest c = true →
    isIdentifierRest c.toLower = true ∧ c.toLower.isDigit = c.isDigit) ?_ _
    (toNat_lt_of_isIdentifierRest h) h
  decide

lemma upperChars_of_isIdentifierRest (h : isIdentifierRest c = true) : upperChars c = [c.toUpper] :=
  upperChars_ascii (toNat_lt_of_isIdentifierRest h)

lemma lowerChars_of_isIdentifierRest (h : isIdentifierRest c = true) : lowerChars c = [c.toLower] :=
  lowerChars_ascii (toNat_lt_of_isIdentifierRest h)

lemma forall_isIdentifierRest_upperChars (c : Char) (h : isIdentifierRest c = true) :
    ∀ d ∈ upperChars c, isIdentifierRest d = true := by
  rw [upperChars_of_isIdentifierRest h]
  exact List.forall_mem_singleton.mpr (isIdentifierRest_toUpper h).1

lemma forall_isIdentifierRest_lowerChars (c : Char) (h : isIdentifierRest c = true) :
    ∀ d ∈ lowerChars c, isIdentifierRest d = true := by
  rw [lowerChars_of_isIdentifierRest h]
  exact List.forall_mem_singleton.mpr (isIdentifierRest_toLower h).1

end Characters

section Names

variable {key name : String} {c : Char} {cs : List Char}

/-- Of texts in such characters, those are identifiers that have no digit in front. -/
lemma isIdentifier_eq_of_cons (hname : name.toList = c :: cs)
    (h : ∀ d ∈ name.toList, isIdentifierRest d = true) : isIdentifier name = !c.isDigit := by
  rw [hname] at h
  obtain ⟨hc, hcs⟩ := List.forall_mem_cons.mp h
  rw [isIdentifier, hname]
  simp only [isIdentifierStart_eq hc, List.all_eq_true.mpr hcs, Bool.and_true]

lemma forall_isIdentifierRest (h : isIdentifier key = true) :
    ∀ c ∈ key.toList, isIdentifierRest c = true := by
  rw [isIdentifier] at h
  split at h
  · contradiction
  · next c cs hkey =>
    obtain ⟨hc, hcs⟩ := Bool.and_eq_true_iff.mp h
    have hrest : isIdentifierRest c = true := by
      simp only [isIdentifierStart, isIdentifierRest, Char.isAlphanum, Bool.or_eq_true] at hc ⊢
      tauto
    rw [hkey]
    exact List.forall_mem_cons.mpr ⟨hrest, List.all_eq_true.mp hcs⟩

lemma exists_toList_eq_cons (h : isIdentifier key = true) :
    ∃ c cs, key.toList = c :: cs ∧ c.isDigit = false := by
  cases hkey : key.toList with
  | nil => simp [isIdentifier, hkey] at h
  | cons c cs =>
    rw [isIdentifier_eq_of_cons hkey (forall_isIdentifierRest h), Bool.not_eq_true'] at h
    exact ⟨c, cs, rfl, h⟩

/-- Behind an identifier, more such characters make another one. -/
lemma isIdentifier_append (hname : isIdentifier name = true)
    (hkey : ∀ c ∈ key.toList, isIdentifierRest c = true) : isIdentifier (name ++ key) = true := by
  obtain ⟨c, cs, hcs, hc⟩ := exists_toList_eq_cons hname
  have hlist : (name ++ key).toList = c :: (cs ++ key.toList) := by
    rw [String.toList_append, hcs, List.cons_append]
  rw [isIdentifier_eq_of_cons hlist, hc, Bool.not_false]
  rw [String.toList_append]
  exact List.forall_mem_append.mpr ⟨forall_isIdentifierRest hname, hkey⟩

/-- Whether a text is an identifier depends on its first character only as far as that is
a digit. -/
lemma isIdentifier_eq_of_first {d : Char} (hkey : key.toList = c :: cs)
    (hname : name.toList = d :: cs) (h : ∀ e ∈ key.toList, isIdentifierRest e = true)
    (hd : isIdentifierRest d = true ∧ d.isDigit = c.isDigit) :
    isIdentifier name = isIdentifier key := by
  have hall : ∀ e ∈ name.toList, isIdentifierRest e = true := by
    rw [hkey] at h
    rw [hname]
    exact List.forall_mem_cons.mpr ⟨hd.1, (List.forall_mem_cons.mp h).2⟩
  rw [isIdentifier_eq_of_cons hname hall, isIdentifier_eq_of_cons hkey h, hd.2]

lemma isIdentifier_capitalize (h : ∀ c ∈ key.toList, isIdentifierRest c = true) :
    isIdentifier (capitalize key) = isIdentifier key := by
  cases hkey : key.toList with
  | nil => rw [capitalize, hkey, capitalChars, ← hkey, String.ofList_toList]
  | cons c cs =>
    have hc : isIdentifierRest c = true := h c (by simp [hkey])
    have hcapital : (capitalize key).toList = c.toUpper :: cs := by
      simp [capitalize, hkey, capitalChars, upperChars_of_isIdentifierRest hc]
    exact isIdentifier_eq_of_first hkey hcapital h (isIdentifierRest_toUpper hc)

lemma isIdentifier_uncapitalize (h : ∀ c ∈ key.toList, isIdentifierRest c = true) :
    isIdentifier (uncapitalize key) = isIdentifier key := by
  cases hkey : key.toList with
  | nil => rw [uncapitalize, hkey, uncapitalChars, ← hkey, String.ofList_toList]
  | cons c cs =>
    have hc : isIdentifierRest c = true := h c (by simp [hkey])
    have hsmall : (uncapitalize key).toList = c.toLower :: cs := by
      simp [uncapitalize, hkey, uncapitalChars, lowerChars_of_isIdentifierRest hc]
    exact isIdentifier_eq_of_first hkey hsmall h (isIdentifierRest_toLower hc)

lemma forall_mem_camelCase (h : ∀ c ∈ key.toList, isIdentifierRest c = true) :
    ∀ c ∈ (camelCase key).toList, isIdentifierRest c = true := by
  rw [camelCase, String.toList_ofList]
  exact forall_mem_camelChars forall_isIdentifierRest_upperChars (List.forall_mem_nil _) h

/-- In camel case, a digit behind the underscores in front becomes the first character. -/
lemma isIdentifier_camelCase (h : isIdentifier key = true) :
    isIdentifier (camelCase key) = !hidesDigit key := by
  have hrest := forall_isIdentifierRest h
  have hcamel := forall_mem_camelCase hrest
  obtain ⟨c, cs, hkey, hc⟩ := exists_toList_eq_cons h
  have hcut := List.takeWhile_append_dropWhile (p := (· = '_')) (l := key.toList)
  have hrun : ∀ s ∈ key.toList.takeWhile (· = '_'), isSeparator s = true := by
    intro s hs
    simp [isSeparator, List.mem_takeWhile_imp hs]
  generalize key.toList.takeWhile (· = '_') = run at hcut hrun
  cases hbehind : key.toList.dropWhile (· = '_') with
  | nil =>
    -- Underscores alone stay as they are.
    rw [hbehind, List.append_nil] at hcut
    have hsame : camelCase key = key := by
      rw [camelCase, ← hcut, camelChars_separators hrun, hcut, String.ofList_toList]
    rw [hsame, h, hidesDigit, hbehind]
    rfl
  | cons d ds =>
    rw [hbehind] at hcut
    have hd : isIdentifierRest d = true := hrest d (by simp [← hcut])
    have hother : isSeparator d = false := by
      have hne := List.head?_dropWhile_not (· = '_') key.toList
      rw [hbehind] at hne
      have hhyphen : d ≠ '-' := by
        rintro rfl
        contradiction
      simp [isSeparator, hhyphen, of_decide_eq_false hne]
    have hlist : (camelCase key).toList =
        (if run ≠ [] ∧ d.isAlphanum = true then [d.toUpper] else run ++ [d]) ++
          camelChars [] ds := by
      rw [← camelChars_run_cons hrun hother, hcut, camelCase, String.toList_ofList]
    have hhides : hidesDigit key = d.isDigit := by simp [hidesDigit, hbehind]
    rw [hhides]
    split_ifs at hlist with hgone
    · rw [isIdentifier_eq_of_cons hlist hcamel, (isIdentifierRest_toUpper hd).2]
    · -- The first character stays, and it is no digit.
      rw [hkey] at hcut
      cases run with
      | nil =>
        rw [isIdentifier_eq_of_cons hlist hcamel]
      | cons s run =>
        have halnum : d.isAlphanum = false := by simpa using hgone
        have hdigit : d.isDigit = false := (Bool.or_eq_false_iff.mp halnum).2
        rw [isIdentifier_eq_of_cons hlist hcamel, hdigit, (List.cons.inj hcut).1, hc]

lemma isIdentifier_property (h : isIdentifier key = true) (camel : Bool) :
    isIdentifier (property camel key) = !(camel && hidesDigit key) := by
  have hrest := forall_isIdentifierRest h
  cases camel with
  | true =>
    rw [property, if_pos rfl, isIdentifier_uncapitalize (forall_mem_camelCase hrest),
      isIdentifier_camelCase h, Bool.true_and]
  | false =>
    rw [property, if_neg Bool.false_ne_true, isIdentifier_uncapitalize hrest, h, Bool.false_and,
      Bool.not_false]

lemma isIdentifier_type (h : isIdentifier key = true) :
    isIdentifier (type key) = !hidesDigit key := by
  rw [type, isIdentifier_capitalize (forall_mem_camelCase (forall_isIdentifierRest h)),
    isIdentifier_camelCase h]

lemma forall_mem_capitalize (h : ∀ c ∈ key.toList, isIdentifierRest c = true) :
    ∀ c ∈ (capitalize key).toList, isIdentifierRest c = true := by
  rw [capitalize, String.toList_ofList]
  exact forall_mem_capitalChars forall_isIdentifierRest_upperChars h

lemma forall_mem_property (h : ∀ c ∈ key.toList, isIdentifierRest c = true) (camel : Bool) :
    ∀ c ∈ (property camel key).toList, isIdentifierRest c = true := by
  rw [property, uncapitalize, String.toList_ofList]
  apply forall_mem_uncapitalChars forall_isIdentifierRest_lowerChars
  cases camel with
  | true => exact forall_mem_camelCase h
  | false => exact h

end Names

end Name

namespace Target.Convention

open Name

variable {key : String} {c : Convention}

/-- The conventions that write the property name of a key, maybe with a capital, and no quotes
around it. -/
def unquoted : List Convention := [objectiveC, swift, java, kotlin, go, cSharp, dart]

lemma convert_eq (hc : c ∈ unquoted) (camel : Bool) (key : String) :
    c.convert camel key = property camel key ∨
      c.convert camel key = capitalize (property camel key) := by
  simp only [unquoted, List.mem_cons, List.not_mem_nil, or_false] at hc
  rcases hc with rfl | rfl | rfl | rfl | rfl | rfl | rfl
  · exact Or.inl rfl
  · exact Or.inl rfl
  · exact Or.inl rfl
  · exact Or.inl rfl
  · exact Or.inr rfl
  · exact Or.inr rfl
  · exact Or.inl rfl

lemma isIdentifier_convert (hc : c ∈ unquoted) (hkey : isIdentifier key = true) (camel : Bool) :
    isIdentifier (c.convert camel key) = !(camel && hidesDigit key) := by
  rcases convert_eq hc camel key with h | h
  · rw [h, isIdentifier_property hkey]
  · rw [h, isIdentifier_capitalize (forall_mem_property (forall_isIdentifierRest hkey) camel),
      isIdentifier_property hkey]

lemma isIdentifier_of_reserved : ∀ c ∈ unquoted, ∀ word ∈ c.reserved, isIdentifier word = true := by
  decide +kernel

/-- What is written is an identifier just where the converted key is one, reserved words apart. -/
lemma isIdentifier_fieldName (hc : c ∈ unquoted) (hkey : isIdentifier key = true) (camel : Bool) :
    (c.isReserved (c.convert camel key) || isIdentifier (c.fieldName camel key)) =
      !(camel && hidesDigit key) := by
  rw [← isIdentifier_convert hc hkey camel, fieldName, safeName]
  cases hreserved : c.isReserved (c.convert camel key) with
  | true =>
    rw [isIdentifier_of_reserved c hc _ (List.contains_iff_mem.mp hreserved), Bool.true_or]
  | false => rw [if_neg Bool.false_ne_true, Bool.false_or]

/-- An underscore behind a reserved word brings no other character into a name. -/
lemma forall_mem_fieldName_java (hkey : isIdentifier key = true) (camel : Bool) :
    ∀ c ∈ (java.fieldName camel key).toList, isIdentifierRest c = true := by
  have hname := forall_mem_property (forall_isIdentifierRest hkey) camel
  have hescape : java.escape = addUnderscore := rfl
  have hconvert : java.convert camel key = property camel key := rfl
  rw [fieldName, safeName, hescape, hconvert]
  split_ifs
  · rw [addUnderscore, String.toList_append]
    exact List.forall_mem_append.mpr ⟨hname, by simp [isIdentifierRest]⟩
  · exact hname

end Target.Convention

open Name Target

/-- A name made of an identifier is one again, unless camel case takes underscores in front of a
digit away: then the property is none, nor is a type that is named after the key alone. Behind the
name of another type and in accessors every name is one. What is reserved is an identifier too and
stands there escaped. -/
theorem isIdentifier_names {key : String} (hkey : isIdentifier key = true) (camel : Bool) :
    isIdentifier (property camel key) = !(camel && hidesDigit key) ∧
    isIdentifier (type key) = !hidesDigit key ∧
    (∀ c ∈ Convention.unquoted,
      (c.isReserved (c.convert camel key) || isIdentifier (c.fieldName camel key)) =
        !(camel && hidesDigit key)) ∧
    (∀ enclosing, isIdentifier (NameScope.bare.recordName enclosing key) = !hidesDigit key ∧
      (isIdentifier enclosing = true →
        isIdentifier (NameScope.qualified.recordName enclosing key) = true)) ∧
    ∀ verb ∈ ["get", "set"],
      isIdentifier (verb ++ capitalize (Java.naming.fieldName camel key)) = true := by
  have hrest := forall_isIdentifierRest hkey
  refine ⟨isIdentifier_property hkey camel, isIdentifier_type hkey,
    fun c hc => Convention.isIdentifier_fieldName hc hkey camel, fun enclosing => ⟨?_, ?_⟩, ?_⟩
  · exact isIdentifier_type hkey
  · intro henclosing
    apply isIdentifier_append henclosing
    exact forall_mem_capitalize (forall_mem_camelCase hrest)
  · intro verb hverb
    have hverbs : ∀ verb ∈ ["get", "set"], isIdentifier verb = true := by decide
    apply isIdentifier_append (hverbs verb hverb)
    exact forall_mem_capitalize (Convention.forall_mem_fieldName_java hkey camel)

/-- Two underscores and a digit in front: what stays a name, and what does not. -/
theorem isIdentifier_names_underscores :
    isIdentifier "__2fa" = true ∧ isIdentifier "Root" = true ∧
    isIdentifier (property true "__2fa") = false ∧ isIdentifier (property false "__2fa") = true ∧
    isIdentifier (type "__2fa") = false ∧
    isIdentifier (NameScope.qualified.recordName "Root" "__2fa") = true ∧
    isIdentifier ("get" ++ capitalize (Java.naming.fieldName true "__2fa")) = true := by
  have hkey : isIdentifier "__2fa" = true := by decide
  have hroot : isIdentifier "Root" = true := by decide
  have hdigit : hidesDigit "__2fa" = true := by decide
  obtain ⟨hon, htype, -, hrecord, hverbs⟩ := isIdentifier_names hkey true
  obtain ⟨hoff, -⟩ := isIdentifier_names hkey false
  rw [hdigit] at hon htype
  rw [hdigit] at hoff
  exact ⟨hkey, hroot, hon, hoff, htype, (hrecord "Root").2 hroot, hverbs "get" List.mem_cons_self⟩

/-- A key of an underscore and a digit, and the code for it. -/
theorem digit_comes_first :
    isIdentifier "_1" = true ∧
    property true "_1" = "1" ∧ type "_1" = "1" ∧ isIdentifier "1" = false ∧
    Language.swift.generate (.object [("_1", .number (.int 1))]) "Root" true =
      "struct Root: Codable \x7b\n    var 1: Int?\n\n" ++
        "    enum CodingKeys: String, CodingKey \x7b\n        case 1 = \"_1\"\n    \x7d\n\x7d" := by
  decide +kernel

end SampleTypes
