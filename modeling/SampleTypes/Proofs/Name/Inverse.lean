import Mathlib.Data.Set.Function
import SampleTypes.Command.Generate
import SampleTypes.Proofs.Name.Camel
import SampleTypes.Proofs.Name.Snake
import SampleTypes.Proofs.Target.Renaming

/-! Ordinary names, between which snake case and camel case go back and forth. What a name becomes
is read back as this name alone, so no two of them become one field, one property or one file. -/
namespace SampleTypes

namespace Name

open Text

/-- A character of one kind, and then only such of another. -/
def begins (first rest : Char → Bool) : List Char → Bool
  | [] => false
  | c :: cs => first c && cs.all rest

def isSmallOrDigit (c : Char) : Bool := c.isLower || c.isDigit

/-- ASCII letters and digits, a small letter first. -/
def isCamelName (s : String) : Bool := begins Char.isLower Char.isAlphanum s.toList

/-- ASCII letters and digits, a capital first. -/
def isTypeName (s : String) : Bool := begins Char.isUpper Char.isAlphanum s.toList

/-- Small ASCII letters and digits, a letter first. -/
def isSegment (s : String) : Bool := begins Char.isLower isSmallOrDigit s.toList

/-- Segments with single underscores between them. -/
def IsSnakeName (s : String) : Prop :=
  ∃ word words, s = "_".intercalate (word :: words) ∧ ∀ w ∈ word :: words, isSegment w = true

lemma begins_iff {first rest : Char → Bool} {cs : List Char} : begins first rest cs = true ↔
    ∃ c ds, cs = c :: ds ∧ first c = true ∧ ∀ d ∈ ds, rest d = true := by
  cases cs with
  | nil => simp [begins]
  | cons c cs => simp [begins]

section Letters

variable {c : Char} {cs rest : List Char}

lemma isAlphanum_of_isSmallOrDigit (h : isSmallOrDigit c = true) : c.isAlphanum = true := by
  rcases Bool.or_eq_true_iff.mp h with hlower | hdigit
  · exact isAlphanum_of_isLower hlower
  · exact Bool.or_eq_true_iff.mpr (Or.inr hdigit)

lemma not_isUpper_of_isSmallOrDigit (h : isSmallOrDigit c = true) : c.isUpper = false := by
  refine @forall_ascii (fun c => isSmallOrDigit c = true → c.isUpper = false)
    (by decide +kernel) _ ?_ h
  exact toNat_lt_of_isAlphanum (isAlphanum_of_isSmallOrDigit h)

lemma isAlphanum_toLower (h : c.isUpper = true) : c.toLower.isAlphanum = true :=
  isAlphanum_of_isLower (small_of_isUpper h).1

lemma snakeChars_capital (h : c.isUpper = true) :
    snakeChars (c :: cs) = '_' :: c.toLower :: snakeChars cs := by
  have hascii := toNat_lt_of_isAlphanum (isAlphanum_of_isUpper h)
  have hupper : isUpperCase c = true := by rw [isUpperCase, if_pos hascii, h]
  rw [snakeChars_cons, if_pos hupper, lowerChars_ascii hascii]
  rfl

lemma snakeChars_other (halnum : c.isAlphanum = true) (h : c.isUpper = false) :
    snakeChars (c :: cs) = c :: snakeChars cs := by
  have hascii := toNat_lt_of_isAlphanum halnum
  have hupper : ¬isUpperCase c = true := by simp [isUpperCase, if_pos hascii, h]
  rw [snakeChars_cons, if_neg hupper, lowerChars_ascii hascii,
    toLower_eq_self_iff.mpr h, List.singleton_append]

lemma dropUnderscore_cons (h : c.isAlphanum = true) : dropUnderscore (c :: cs) = c :: cs := by
  apply dropUnderscore_eq_iff.mpr
  right
  refine ⟨rfl, fun hfirst => ?_⟩
  obtain rfl : c = '_' := Option.some.inj hfirst
  contradiction

lemma camelChars_cons (h : c.isAlphanum = true) :
    camelChars [] (c :: cs) = c :: camelChars [] cs := by
  rw [camelChars, if_neg (by simp [isSeparator_of_isAlphanum h]), if_pos List.isEmpty_nil]

lemma camelChars_underscore_cons (h : c.isAlphanum = true) :
    camelChars [] ('_' :: c :: cs) = c.toUpper :: camelChars [] cs := by
  let p : Piece := ⟨['_'], c, List.forall_mem_singleton.mpr rfl, isSeparator_of_isAlphanum h⟩
  have hpiece : p.camel = [c.toUpper] := if_pos ⟨by simp [p], h⟩
  have happend := camelChars_piece_append p cs
  rw [hpiece] at happend
  exact happend

lemma camelChars_append (hcs : ∀ c ∈ cs, c.isAlphanum = true) :
    camelChars [] (cs ++ rest) = cs ++ camelChars [] rest := by
  induction cs with
  | nil => rfl
  | cons c cs ih =>
    obtain ⟨hc, hcs⟩ := List.forall_mem_cons.mp hcs
    rw [List.cons_append, camelChars_cons hc, ih hcs, List.cons_append]

end Letters

section Snake

variable {cs : List Char} {s : String}

/-- Each capital comes back from the underscore before it. -/
lemma camelChars_snakeChars (hcs : ∀ c ∈ cs, c.isAlphanum = true) :
    camelChars [] (snakeChars cs) = cs := by
  induction cs with
  | nil => rfl
  | cons c cs ih =>
    obtain ⟨hc, hcs⟩ := List.forall_mem_cons.mp hcs
    cases hupper : c.isUpper with
    | true =>
      rw [snakeChars_capital hupper, camelChars_underscore_cons (isAlphanum_toLower hupper),
        toUpper_toLower hupper, ih hcs]
    | false => rw [snakeChars_other hc hupper, camelChars_cons hc, ih hcs]

/-- Only the first letter does not, as no underscore is left before it. -/
lemma camelCase_snakeCase (h : ∀ c ∈ s.toList, c.isAlphanum = true) :
    camelCase (snakeCase s) = uncapitalize s := by
  rw [camelCase, snakeCase, uncapitalize, String.toList_ofList]
  congr 1
  cases hs : s.toList with
  | nil => rfl
  | cons c cs =>
    rw [hs] at h
    obtain ⟨hc, hcs⟩ := List.forall_mem_cons.mp h
    rw [uncapitalChars, lowerChars_ascii (toNat_lt_of_isAlphanum hc), List.singleton_append]
    cases hupper : c.isUpper with
    | true =>
      rw [snakeChars_capital hupper, dropUnderscore, camelChars_cons (isAlphanum_toLower hupper),
        camelChars_snakeChars hcs]
    | false =>
      rw [snakeChars_other hc hupper, dropUnderscore_cons hc, camelChars_cons hc,
        camelChars_snakeChars hcs, toLower_eq_self_iff.mpr hupper]

lemma uncapitalize_of_isCamelName (h : isCamelName s = true) : uncapitalize s = s := by
  obtain ⟨c, cs, hs, hc, -⟩ := begins_iff.mp h
  have hascii := toNat_lt_of_isAlphanum (isAlphanum_of_isLower hc)
  rw [← String.toList_inj, uncapitalize, String.toList_ofList, hs, uncapitalChars,
    lowerChars_ascii hascii, toLower_of_isLower hc, List.singleton_append]

lemma capitalize_uncapitalize (h : isTypeName s = true) : capitalize (uncapitalize s) = s := by
  obtain ⟨c, cs, hs, hc, -⟩ := begins_iff.mp h
  have hascii := toNat_lt_of_isAlphanum (isAlphanum_of_isUpper hc)
  have hlower : (uncapitalize s).toList = c.toLower :: cs := by
    rw [uncapitalize, String.toList_ofList, hs, uncapitalChars, lowerChars_ascii hascii,
      List.singleton_append]
  rw [← String.toList_inj, capitalize, String.toList_ofList, hlower, capitalChars,
    (upperChars_of_isAlphanum (isAlphanum_toLower hc)).1, toUpper_toLower hc,
    List.singleton_append, hs]

lemma forall_isAlphanum_of_begins {first : Char → Bool}
    (hfirst : ∀ c, first c = true → c.isAlphanum = true)
    (h : begins first Char.isAlphanum cs = true) : ∀ c ∈ cs, c.isAlphanum = true := by
  obtain ⟨c, ds, rfl, hc, hds⟩ := begins_iff.mp h
  exact List.forall_mem_cons.mpr ⟨hfirst c hc, hds⟩

lemma property_snakeCase (h : isCamelName s = true) : property true (snakeCase s) = s := by
  have halnum := forall_isAlphanum_of_begins (fun _ => isAlphanum_of_isLower) h
  rw [property, if_pos rfl, camelCase_snakeCase halnum, uncapitalize_of_isCamelName h,
    uncapitalize_of_isCamelName h]

lemma type_snakeCase (h : isTypeName s = true) : type (snakeCase s) = s := by
  have halnum := forall_isAlphanum_of_begins (fun _ => isAlphanum_of_isUpper) h
  rw [type, camelCase_snakeCase halnum, capitalize_uncapitalize h]

end Snake

section Words

variable {s word : String} {words : List String}

/-- Words with an underscore before each of them. -/
def tagged (words : List String) : List Char := words.flatMap fun word => '_' :: word.toList

/-- Words with a capital each. -/
def capitals (words : List String) : List Char := words.flatMap fun word => capitalChars word.toList

lemma tagged_cons (word : String) (words : List String) :
    tagged (word :: words) = '_' :: (word.toList ++ tagged words) := by
  rw [tagged, List.flatMap_cons, List.cons_append, tagged]

lemma capitals_cons (word : String) (words : List String) :
    capitals (word :: words) = capitalChars word.toList ++ capitals words := by
  rw [capitals, List.flatMap_cons, capitals]

lemma toList_intercalate_underscore (word : String) (words : List String) :
    ("_".intercalate (word :: words)).toList = word.toList ++ tagged words := by
  induction words generalizing word with
  | nil => simp [tagged]
  | cons next words ih =>
    rw [String.intercalate_cons_cons, String.toList_append, String.toList_append, ih, tagged_cons,
      List.append_assoc]
    rfl

lemma isSegment_iff : isSegment word = true ↔ ∃ c cs, word.toList = c :: cs ∧ c.isLower = true ∧
    ∀ d ∈ c :: cs, isSmallOrDigit d = true := by
  rw [isSegment, begins_iff]
  constructor
  · rintro ⟨c, cs, hword, hc, hcs⟩
    have hfirst : isSmallOrDigit c = true := by rw [isSmallOrDigit, hc, Bool.true_or]
    exact ⟨c, cs, hword, hc, List.forall_mem_cons.mpr ⟨hfirst, hcs⟩⟩
  · rintro ⟨c, cs, hword, hc, hall⟩
    exact ⟨c, cs, hword, hc, (List.forall_mem_cons.mp hall).2⟩

lemma camelChars_tagged (h : ∀ w ∈ words, isSegment w = true) :
    camelChars [] (tagged words) = capitals words := by
  induction words with
  | nil => rfl
  | cons word words ih =>
    obtain ⟨hword, hwords⟩ := List.forall_mem_cons.mp h
    obtain ⟨c, cs, hcs, hc, hall⟩ := isSegment_iff.mp hword
    obtain ⟨hfirst, hrest⟩ := List.forall_mem_cons.mp hall
    have halnum : ∀ d ∈ cs, d.isAlphanum = true :=
      fun d hd => isAlphanum_of_isSmallOrDigit (hrest d hd)
    rw [tagged_cons, hcs, List.cons_append, camelChars_underscore_cons (isAlphanum_of_isLower hc),
      camelChars_append halnum, ih hwords, capitals_cons, hcs, capitalChars_cons hc,
      List.cons_append]

/-- Small letters and digits are their own snake case. -/
lemma snakeChars_small {cs : List Char} (h : ∀ c ∈ cs, isSmallOrDigit c = true) :
    snakeChars cs = cs := by
  induction cs with
  | nil => rfl
  | cons c cs ih =>
    obtain ⟨hc, hcs⟩ := List.forall_mem_cons.mp h
    rw [snakeChars_other (isAlphanum_of_isSmallOrDigit hc) (not_isUpper_of_isSmallOrDigit hc),
      ih hcs]

lemma snakeChars_capitals (h : ∀ w ∈ words, isSegment w = true) :
    snakeChars (capitals words) = tagged words := by
  induction words with
  | nil => rfl
  | cons word words ih =>
    obtain ⟨hword, hwords⟩ := List.forall_mem_cons.mp h
    obtain ⟨c, cs, hcs, hc, hall⟩ := isSegment_iff.mp hword
    have hupper : c.toUpper.isUpper = true := (capital_of_isLower hc).2.1
    rw [capitals_cons, hcs, capitalChars_cons hc, List.cons_append, snakeChars_capital hupper,
      toLower_toUpper hc, snakeChars_append, snakeChars_small (List.forall_mem_cons.mp hall).2,
      ih hwords, tagged_cons, hcs, List.cons_append]

lemma snakeCase_property (h : IsSnakeName s) : snakeCase (property true s) = s := by
  obtain ⟨word, words, rfl, hall⟩ := h
  obtain ⟨hword, hwords⟩ := List.forall_mem_cons.mp hall
  obtain ⟨c, cs, hcs, hc, hsmall⟩ := isSegment_iff.mp hword
  have hascii := toNat_lt_of_isAlphanum (isAlphanum_of_isLower hc)
  have halnum : ∀ d ∈ word.toList, d.isAlphanum = true := by
    rw [hcs]
    exact fun d hd => isAlphanum_of_isSmallOrDigit (hsmall d hd)
  have hproperty : (property true ("_".intercalate (word :: words))).toList =
      word.toList ++ capitals words := by
    rw [toList_property_true, camelCase, String.toList_ofList, toList_intercalate_underscore,
      camelChars_append halnum, camelChars_tagged hwords, hcs, List.cons_append, uncapitalChars,
      lowerChars_ascii hascii, toLower_of_isLower hc, List.singleton_append]
  have hsnake : snakeChars (word.toList ++ capitals words) = word.toList ++ tagged words := by
    rw [snakeChars_append, snakeChars_capitals hwords, hcs, snakeChars_small hsmall]
  have hdrop : dropUnderscore (word.toList ++ tagged words) = word.toList ++ tagged words := by
    rw [hcs]
    exact dropUnderscore_cons (isAlphanum_of_isLower hc)
  rw [← String.toList_inj, snakeCase, String.toList_ofList, hproperty, hsnake, hdrop,
    toList_intercalate_underscore]

end Words

end Name

open Name

namespace Target.Rust

variable {s word : String}

lemma wordChar_snakeChars {cs : List Char} (hcs : ∀ c ∈ cs, c.isAlphanum = true) :
    (snakeChars cs).map wordChar = snakeChars cs := by
  have hword : ∀ c : Char, c.isAlphanum = true → wordChar c = c := by
    intro c hc
    rw [wordChar, if_pos (by rw [hc, Bool.true_or])]
  induction cs with
  | nil => rfl
  | cons c cs ih =>
    obtain ⟨hc, hcs⟩ := List.forall_mem_cons.mp hcs
    cases hupper : c.isUpper with
    | true =>
      rw [snakeChars_capital hupper, List.map_cons, List.map_cons, ih hcs,
        hword _ (isAlphanum_toLower hupper)]
      rfl
    | false => rw [snakeChars_other hc hupper, List.map_cons, ih hcs, hword c hc]

/-- Of an ordinary name nothing is replaced. -/
lemma snakeWord_eq_snakeCase (h : isCamelName s = true) : snakeWord s = snakeCase s := by
  obtain ⟨c, cs, hs, hc, hcs⟩ := begins_iff.mp h
  have halnum := Text.isAlphanum_of_isLower hc
  have hdigit : ¬c.isDigit = true := by
    refine @Text.forall_ascii (fun c => c.isLower = true → ¬c.isDigit = true)
      (by decide +kernel) _ ?_ hc
    exact Text.toNat_lt_of_isAlphanum halnum
  have hupper : c.isUpper = false := (Text.capital_of_isLower hc).1
  have hall := wordChar_snakeChars (List.forall_mem_cons.mpr ⟨halnum, hcs⟩)
  rw [snakeChars_other halnum hupper] at hall
  rw [snakeWord, snakeCase, String.toList_ofList, hs, snakeChars_other halnum hupper,
    dropUnderscore_cons halnum, hall]
  simp only [if_neg hdigit]

/-- No two names without a number sign are escaped alike. -/
lemma rawWord_injOn : Set.InjOn rawWord {s | '#' ∉ s.toList} := by
  have hne : ∀ a b : String, '#' ∉ a.toList → addUnderscore a ≠ "r#" ++ b := by
    intro a b ha h
    have hhash : '#' ∈ ("r#" ++ b).toList := by simp
    rw [← h, addUnderscore, String.toList_append] at hhash
    simp [ha] at hhash
  intro a ha b hb h
  rw [rawWord, rawWord] at h
  split_ifs at h
  · exact (String.append_left_inj _).mp h
  · exact absurd h (hne a b ha)
  · exact absurd h.symm (hne b a hb)
  · exact (String.append_right_inj _).mp h

/-- What is written for a reserved word is written for no other ordinary name. -/
lemma rawWord_ne_snakeWord (hs : isCamelName s = true) : rawWord word ≠ snakeWord s := by
  have hfour : ∀ w ∈ ["self", "Self", "super", "crate"],
      isCamelName (Name.property true (addUnderscore w)) = false := by
    decide +kernel
  intro h
  rw [rawWord] at h
  split_ifs at h with hself
  · have hname := hfour word (List.contains_iff_mem.mp hself)
    rw [h, snakeWord_eq_snakeCase hs, property_snakeCase hs, hs] at hname
    exact Bool.noConfusion hname
  · have hhash : '#' ∈ ("r#" ++ word).toList := by simp
    rw [h] at hhash
    exact hash_notMem_snakeWord s hhash

lemma fieldName_injOn (camel : Bool) :
    Set.InjOn (naming.fieldName camel) {s | isCamelName s = true} := by
  have hname : ∀ s, naming.fieldName camel s =
      if naming.isReserved (snakeWord s) then rawWord (snakeWord s) else snakeWord s := by
    intro s
    have hconvert : naming.convert camel s = snakeWord s := by simp only [naming, Convention.rust]
    have hescape : naming.escape = rawWord := rfl
    rw [Convention.fieldName, Convention.safeName, hconvert, hescape]
  have hback : Set.LeftInvOn (Name.property true) snakeWord {s | isCamelName s = true} := by
    intro s hs
    rw [snakeWord_eq_snakeCase hs, property_snakeCase hs]
  intro s hs t ht h
  rw [hname, hname] at h
  apply hback.injOn hs ht
  split_ifs at h
  · exact rawWord_injOn (hash_notMem_snakeWord s) (hash_notMem_snakeWord t) h
  · exact absurd h (rawWord_ne_snakeWord ht)
  · exact absurd h.symm (rawWord_ne_snakeWord hs)
  · exact h

end Target.Rust

namespace Command

open Files

lemma join_injective {directory a b : String} (ha : Path.isAbsolute a = false)
    (hb : Path.isAbsolute b = false) (h : Path.join directory a = Path.join directory b) :
    a = b := by
  simp only [Path.join, ha, hb, Bool.false_eq_true, false_or] at h
  split_ifs at h
  · exact h
  · exact (String.append_right_inj _).mp h
  · exact (String.append_right_inj _).mp h

lemma path_eq_join {settings : Settings} {request : GenerateRequest} {source : Source}
    {directory path : String} (hdestination : request.destination = .directory directory)
    (hpath : request.path settings source = .ok (some path)) :
    path = Path.join directory (source.fileName (snakeCase (request.rootName settings))) := by
  rw [GenerateRequest.path, hdestination] at hpath
  dsimp only at hpath
  split_ifs at hpath
  exact (Option.some.inj (Except.ok.inj hpath)).symm

lemma not_isAbsolute_fileName (source : Source) {root : String} (h : isTypeName root = true) :
    Path.isAbsolute (source.fileName (snakeCase root)) = false := by
  obtain ⟨c, cs, hroot, hc, -⟩ := begins_iff.mp h
  have hlist : (snakeCase root).toList = c.toLower :: snakeChars cs := by
    rw [snakeCase, String.toList_ofList, hroot, snakeChars_capital hc, dropUnderscore]
  have hslash : c.toLower ≠ '/' := by
    intro heq
    have halnum := isAlphanum_toLower hc
    rw [heq] at halnum
    contradiction
  simp [Path.isAbsolute, Source.fileName, hlist, hslash]

/-- Code in one language is filed under one name for one root only. -/
lemma root_eq_of_fileName {source source' : Source} (hlanguage : source.language = source'.language)
    {root root' : String} (hroot : isTypeName root = true) (hroot' : isTypeName root' = true)
    (h : source.fileName (snakeCase root) = source'.fileName (snakeCase root')) : root = root' := by
  rw [Source.fileName, Source.fileName, Source.extension, Source.extension, hlanguage] at h
  rw [← type_snakeCase hroot, (String.append_left_inj _).mp h, type_snakeCase hroot']

/-- In one directory the files for two roots have two paths. -/
lemma root_eq_of_path {settings settings' : Settings} {request request' : GenerateRequest}
    {source source' : Source} {directory path : String}
    (hlanguage : source.language = source'.language)
    (hdestination : request.destination = .directory directory)
    (hdestination' : request'.destination = .directory directory)
    (hpath : request.path settings source = .ok (some path))
    (hpath' : request'.path settings' source' = .ok (some path))
    (hroot : isTypeName (request.rootName settings) = true)
    (hroot' : isTypeName (request'.rootName settings') = true) :
    request.rootName settings = request'.rootName settings' := by
  apply root_eq_of_fileName hlanguage hroot hroot'
  apply join_injective (not_isAbsolute_fileName source hroot)
    (not_isAbsolute_fileName source' hroot')
  exact (path_eq_join hdestination hpath).symm.trans (path_eq_join hdestination' hpath')

end Command

open Command Target

/-- Snake case and camel case undo each other on ordinary names. So two such keys have two fields
in Rust and two properties in camel case, and two such roots have two files in one language and
directory. -/
theorem snakeCase_and_camelCase_inverse :
    Set.LeftInvOn (property true) snakeCase {s | isCamelName s = true} ∧
    Set.LeftInvOn type snakeCase {s | isTypeName s = true} ∧
    Set.LeftInvOn snakeCase (property true) {s | IsSnakeName s} ∧
    (∀ camel, Set.InjOn (Rust.naming.fieldName camel) {s | isCamelName s = true}) ∧
    Set.InjOn (property true) {s | IsSnakeName s} ∧
    (∀ source source' : Source, source.language = source'.language →
      ∀ root root', isTypeName root = true → isTypeName root' = true →
        source.fileName (snakeCase root) = source'.fileName (snakeCase root') → root = root') ∧
    ∀ (settings settings' : Settings) (request request' : GenerateRequest) (source source' : Source)
      (directory path : String), source.language = source'.language →
      request.destination = .directory directory → request'.destination = .directory directory →
      request.path settings source = .ok (some path) →
      request'.path settings' source' = .ok (some path) →
      isTypeName (request.rootName settings) = true →
      isTypeName (request'.rootName settings') = true →
      request.rootName settings = request'.rootName settings' := by
  have hsnake : Set.LeftInvOn snakeCase (property true) {s | IsSnakeName s} :=
    fun _ hs => snakeCase_property hs
  refine ⟨fun _ hs => property_snakeCase hs, fun _ hs => type_snakeCase hs, hsnake,
    Rust.fieldName_injOn, hsnake.injOn, ?_, ?_⟩
  · intro source source' hlanguage root root' hroot hroot' h
    exact root_eq_of_fileName hlanguage hroot hroot' h
  · intro settings settings' request request' source source' directory path hlanguage hdestination
      hdestination' hpath hpath' hroot hroot'
    exact root_eq_of_path hlanguage hdestination hdestination' hpath hpath' hroot hroot'

/-- A key and a root with capitals side by side, and segments with digits; one directory for two
files. -/
theorem snakeCase_and_camelCase_inverse_capitals :
    isCamelName "userID2" = true ∧ snakeCase "userID2" = "user_i_d2" ∧
    property true "user_i_d2" = "userID2" ∧
    isTypeName "HTTPRoot" = true ∧ type (snakeCase "HTTPRoot") = "HTTPRoot" ∧
    IsSnakeName "a1_b_c" ∧ snakeCase (property true "a1_b_c") = "a1_b_c" ∧
    Rust.naming.fieldName true "type" ≠ Rust.naming.fieldName true "userID2" ∧
    (let request : GenerateRequest := { root := some "HTTPRoot", destination := .directory "out" }
    let source : Source := ⟨.go, ""⟩
    request.path {} source = .ok (some "out/h_t_t_p_root.go") ∧
    ∀ request' : GenerateRequest, request'.destination = .directory "out" →
      request'.path {} source = .ok (some "out/h_t_t_p_root.go") →
      isTypeName (request'.rootName {}) = true → request'.rootName {} = "HTTPRoot") := by
  obtain ⟨hcamel, htype, hsnake, hfields, -, -, hpaths⟩ := snakeCase_and_camelCase_inverse
  have hkey : isCamelName "userID2" = true := by decide
  have hword : isCamelName "type" = true := by decide
  have hroot : isTypeName "HTTPRoot" = true := by decide
  have hname : IsSnakeName "a1_b_c" := ⟨"a1", ["b", "c"], by decide, by decide⟩
  have hconverted : snakeCase "userID2" = "user_i_d2" := by decide +kernel
  have hback : property true (snakeCase "userID2") = "userID2" := hcamel hkey
  rw [hconverted] at hback
  refine ⟨hkey, hconverted, hback, hroot, htype hroot, hname, hsnake hname, ?_, ?_⟩
  · intro h
    have hsame : "type" = "userID2" := hfields true hword hkey h
    contradiction
  · intro request source
    have hpath : request.path {} source = .ok (some "out/h_t_t_p_root.go") := by decide +kernel
    refine ⟨hpath, fun request' hdestination' hpath' hroot' => ?_⟩
    exact hpaths {} {} request' request source source "out" _ rfl hdestination' rfl hpath' hpath
      hroot' hroot

end SampleTypes
