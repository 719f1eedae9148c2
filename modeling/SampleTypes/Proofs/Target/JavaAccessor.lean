import SampleTypes.Generate
import SampleTypes.Proofs.Name.Spelling
import SampleTypes.Proofs.Target.Imports

/-! Properties of Java classes by their accessors. Without an annotation a property has no name
but the one that is read off its getter and setter, and there all capitals in front become small
again, not the first one alone. So a key is found again unless a capital follows its small first
letter. -/
namespace SampleTypes.Target.Java

open Json Layout Text

/-- A text with the capitals in front of it in lower case. A capital is what has another lower
case. -/
def lowerRun (lower : Char → Char) (cs : List Char) : List Char :=
  (cs.takeWhile fun c => lower c ≠ c).map lower ++ cs.dropWhile fun c => lower c ≠ c

/-- The property of a getter or setter, by what follows `get` or `set` in its name. -/
def propertyOf (lower : Char → Char) (accessor : String) : String :=
  .ofList (lowerRun lower accessor.toList)

/-- Whether lowering the capitals in front undoes the capital of a text. -/
def IsRestored (lower : Char → Char) : List Char → Prop
  | [] => True
  | c :: cs => ∃ d, upperChars c = [d] ∧ lower d = c ∧
    (d = c ∨ ∀ e, cs.head? = some e → lower e = e)

/-- A lower case that is the usual one for ASCII. -/
def LowersAscii (lower : Char → Char) : Prop :=
  ∀ c : Char, c.toNat < 0x80 → lower c = c.toLower

section Lower

variable {lower : Char → Char}

lemma lowerRun_cons (c : Char) (cs : List Char) : lowerRun lower (c :: cs) =
    if lower c = c then c :: cs else lower c :: lowerRun lower cs := by
  rw [lowerRun, List.takeWhile_cons, List.dropWhile_cons]
  by_cases h : lower c = c
  · simp [h]
  · simp [h, lowerRun]

lemma length_lowerRun (cs : List Char) : (lowerRun lower cs).length = cs.length := by
  induction cs with
  | nil => rfl
  | cons c cs ih =>
    rw [lowerRun_cons]
    split
    · rfl
    · rw [List.length_cons, List.length_cons, ih]

/-- Nothing is lowered where no capital stands in front. -/
lemma lowerRun_eq_self_iff (cs : List Char) :
    lowerRun lower cs = cs ↔ ∀ c, cs.head? = some c → lower c = c := by
  cases cs with
  | nil => simp [lowerRun]
  | cons c cs =>
    rw [lowerRun_cons, List.head?_cons]
    constructor
    · rintro h _ ⟨⟩
      by_contra hc
      rw [if_neg hc] at h
      exact hc (List.cons.inj h).1
    · intro h
      rw [if_pos (h c rfl)]

/-- The capital of a first letter is undone if it is one letter with that one for its lower case,
and stands alone. -/
lemma lowerRun_capitalChars_iff (cs : List Char) :
    lowerRun lower (Name.capitalChars cs) = cs ↔ IsRestored lower cs := by
  cases cs with
  | nil => exact iff_of_true rfl trivial
  | cons c cs =>
    rw [Name.capitalChars, IsRestored]
    constructor
    · intro h
      have hlength : (upperChars c).length = 1 := by
        have hsame := congrArg List.length h
        rw [length_lowerRun, List.length_append, List.length_cons] at hsame
        omega
      obtain ⟨d, hd⟩ := List.length_eq_one_iff.mp hlength
      rw [hd, List.singleton_append, lowerRun_cons] at h
      split_ifs at h with hlower
      · obtain ⟨rfl, -⟩ := List.cons.inj h
        exact ⟨d, hd, hlower, Or.inl rfl⟩
      · obtain ⟨hc, hcs⟩ := List.cons.inj h
        exact ⟨d, hd, hc, Or.inr ((lowerRun_eq_self_iff cs).mp hcs)⟩
    · rintro ⟨d, hd, hlower, hrest⟩
      rw [hd, List.singleton_append, lowerRun_cons]
      split_ifs with hself
      · rw [← hlower, hself]
      · have hne : d ≠ c := fun hdc => hself (hlower.trans hdc.symm)
        rw [hlower, (lowerRun_eq_self_iff cs).mpr (hrest.resolve_left hne)]

lemma lower_eq_self_iff (hlower : LowersAscii lower) {c : Char} (hc : c.toNat < 0x80) :
    lower c = c ↔ c.isUpper = false := by
  rw [hlower c hc]
  exact toLower_eq_self_iff

/-- A small letter comes back from its capital, which is another one. -/
lemma lower_toUpper (hlower : LowersAscii lower) {c : Char} (hsmall : c.isLower = true) :
    lower c.toUpper = c ∧ c.toUpper ≠ c := by
  have hcapital := toNat_lt_of_isAlphanum (Name.isAlphanum_toUpper hsmall)
  refine ⟨by rw [hlower _ hcapital, toLower_toUpper hsmall], fun heq => ?_⟩
  rw [toUpper_eq_self_iff, hsmall] at heq
  contradiction

/-- Of ASCII, a text that does not begin with a capital is restored unless its second letter is
one. -/
lemma isRestored_ascii_iff (hlower : LowersAscii lower) {cs : List Char}
    (hascii : ∀ c ∈ cs, c.toNat < 0x80)
    (hfirst : ∀ c, cs.head? = some c → c.isUpper = false) :
    IsRestored lower cs ↔
      ¬∃ c d rest, cs = c :: d :: rest ∧ c.isLower = true ∧ d.isUpper = true := by
  cases cs with
  | nil => simp [IsRestored]
  | cons c cs =>
    obtain ⟨hc, hcs⟩ := List.forall_mem_cons.mp hascii
    rw [IsRestored, upperChars_ascii hc]
    cases hsmall : c.isLower with
    | false =>
      -- A first character without case is its own capital.
      have hself : c.toUpper = c := toUpper_eq_self_iff.mpr hsmall
      have hback := (lower_eq_self_iff hlower hc).mpr (hfirst c rfl)
      refine iff_of_true ⟨c, by rw [hself], hback, Or.inl rfl⟩ ?_
      rintro ⟨c', d, rest, hcs', hsmall', -⟩
      rw [← (List.cons.inj hcs').1, hsmall] at hsmall'
      contradiction
    | true =>
      obtain ⟨hback, hne⟩ := lower_toUpper hlower hsmall
      constructor
      · rintro ⟨d, hd, -, hrest⟩ ⟨c', e, rest, hcs', -, he⟩
        obtain ⟨-, rfl⟩ := List.cons.inj hcs'
        obtain rfl : c.toUpper = d := (List.cons.inj hd).1
        have hself := (hrest.resolve_left hne) e rfl
        rw [(lower_eq_self_iff hlower (hcs e List.mem_cons_self)).mp hself] at he
        contradiction
      · intro hnone
        refine ⟨c.toUpper, rfl, hback, Or.inr fun e he => ?_⟩
        obtain ⟨rest, rfl⟩ := List.head?_eq_some_iff.mp he
        refine (lower_eq_self_iff hlower (hcs e List.mem_cons_self)).mpr ?_
        by_contra hcapital
        rw [Bool.not_eq_false] at hcapital
        exact hnone ⟨c, e, rest, rfl, hsmall, hcapital⟩

end Lower

/-- The name of a field does not begin with an ASCII capital. -/
lemma not_isUpper_fieldName (camel : Bool) (key : String) :
    ∀ c, (naming.fieldName camel key).toList.head? = some c → c.isUpper = false := by
  have hconvert : naming.convert camel key = Name.property camel key := rfl
  have hescape : ∀ word, (naming.escape word).toList = word.toList ++ ['_'] := fun word => by
    simp [naming, Convention.java, addUnderscore]
  intro c hc
  have hhead : (Name.property camel key).toList.head? = some c ∨ c = '_' := by
    rw [Convention.fieldName, Convention.safeName, hconvert] at hc
    split at hc
    · rw [hescape, List.head?_append, Option.or_eq_some_iff] at hc
      rcases hc with hc | ⟨-, hc⟩
      · exact Or.inl hc
      · exact Or.inr (Option.some.inj hc).symm
    · exact Or.inl hc
  rcases hhead with hhead | rfl
  · exact Name.not_isUpper_property camel key c hhead
  · decide

/-- Where no annotation is written, a field has its key for its name. -/
lemma fieldName_eq_of_not_annotated {camel : Bool} {field : Field}
    (h : "@JsonProperty(" ++ quoted field.key ++ ")" ∉ fieldLines camel field) :
    naming.fieldName camel field.key = field.key := by
  rw [annotation_mem_fieldLines_iff] at h
  have hunescape : naming.unescape = id := rfl
  simpa [Convention.renames, Convention.isRenamed, hunescape] using h

/-- The accessors of every field whose key stands on one line are lines of the code. -/
lemma accessorLine_mem_lines {sample : Json} {object : Members}
    (hobject : sample.described? = some object) (root : String) (camel : Bool)
    {d : String × Members} (hd : d ∈ definedObjects .bare (Name.type root) object)
    {field : Field}
    (hfield : field ∈ (Schema.ofMembers .bare d.1 d.2).fields) (hkey : OneLine field.key) :
    ∀ l ∈ accessorLines camel field,
      "    " ++ l ∈ Text.lines (Language.java.generate sample root camel) := by
  intro l hl
  have hmem : ∀ isRoot, "    " ++ l ∈
      printer.block camel isRoot (Schema.ofMembers .bare d.1 d.2) := by
    intro isRoot
    have hlines : l ∈ (Schema.ofMembers .bare d.1 d.2).fields.flatMap (accessorLines camel) :=
      List.mem_flatMap.mpr ⟨field, hfield, hl⟩
    have hclosing : "    " ++ l ∈ printer.closing camel (Schema.ofMembers .bare d.1 d.2) :=
      List.mem_append_left _ (List.mem_append_right _ (List.mem_map_of_mem hlines))
    exact List.mem_append_right _ hclosing
  have hline := oneLine_accessorLines camel (Field.plain_of_mem_ofMembers hfield hkey) l hl
  rw [Language.generate_of_definitions rfl hobject]
  exact mem_lines_withImports (flatAll_eq_block camel) (Outline.mem_schemas_ofObject hd)
    ((oneLine_append _ _).mpr ⟨by decide, hline⟩) (by simp) hmem

/-- A field without an annotation has its getter and setter in the code, if its key stands on one
line. They stand for the key just if its first letter is the lower case of its own capital and no
capital follows it, or has no other capital than itself. Of the keys in ASCII, they miss those
with a small letter and then a capital. -/
theorem accessors_restore_key_iff {lower : Char → Char} (hlower : LowersAscii lower)
    {sample : Json} {object : Members} (hobject : sample.described? = some object) (root : String)
    (camel : Bool) :
    ∀ d ∈ definedObjects .bare (Name.type root) object,
    ∀ field ∈ (Schema.ofMembers .bare d.1 d.2).fields,
      "@JsonProperty(" ++ quoted field.key ++ ")" ∉ fieldLines camel field →
      let key := field.key
      let type := Tokens.java.spell field.type
      let name := naming.fieldName camel key
      let accessor := Name.capitalize name
      let lines := Text.lines (Language.java.generate sample root camel)
      (OneLine key →
        "    " ++
            ("public " ++ type ++ " get" ++ accessor ++ "() \x7b return " ++ name ++ "; \x7d") ∈
          lines ∧
        "    " ++ ("public void set" ++ accessor ++ "(" ++ type ++ " " ++ name ++ ") \x7b this." ++
          name ++ " = " ++ name ++ "; \x7d") ∈ lines) ∧
      (propertyOf lower accessor = key ↔ IsRestored lower key.toList) ∧
      ((∀ c ∈ key.toList, c.toNat < 0x80) → (propertyOf lower accessor = key ↔
        ¬∃ c d rest,
          key.toList = c :: d :: rest ∧ c.isLower = true ∧ d.isUpper = true)) := by
  intro d hd field hfield hplain key type name accessor lines
  have hname : name = key := fieldName_eq_of_not_annotated hplain
  have hrestored : propertyOf lower accessor = key ↔ IsRestored lower key.toList := by
    rw [← lowerRun_capitalChars_iff, ← String.toList_inj, propertyOf, String.toList_ofList]
    simp only [accessor, hname, Name.capitalize, String.toList_ofList]
  refine ⟨fun hkey => ?_, hrestored, fun hascii => ?_⟩
  · have hmem := accessorLine_mem_lines hobject root camel hd hfield hkey
    exact ⟨hmem _ List.mem_cons_self, hmem _ (List.mem_cons_of_mem _ List.mem_cons_self)⟩
  · have hfirst : ∀ c, key.toList.head? = some c → c.isUpper = false := by
      rw [← hname]
      exact not_isUpper_fieldName camel key
    rw [hrestored, isRestored_ascii_iff hlower hascii hfirst]

lemma lowersAscii_toLower : LowersAscii Char.toLower := fun _ _ => rfl

/-- A key that is found again, and one that is not. -/
theorem accessors_restore_key_iff_second_capital :
    let object : Members := [("userId", .null), ("eMail", .null)]
    (LowersAscii Char.toLower ∧ (Json.object object).described? = some object ∧
      ∀ key ∈ object.keys,
        "@JsonProperty(" ++ quoted key ++ ")" ∉ fieldLines true ⟨key, .any⟩) ∧
    "    public Object getUserId() \x7b return userId; \x7d" ∈
      Text.lines (Language.java.generate (.object object) "Root" true) ∧
    propertyOf Char.toLower "UserId" = "userId" ∧
    propertyOf Char.toLower "EMail" ≠ "eMail" := by
  intro object
  have hplain : ∀ key ∈ object.keys,
      "@JsonProperty(" ++ quoted key ++ ")" ∉ fieldLines true ⟨key, .any⟩ := by
    have hkeys : ∀ key ∈ object.keys, naming.renames true key = false := by decide +kernel
    intro key hkey
    rw [annotation_mem_fieldLines_iff, hkeys key hkey]
    exact Bool.false_ne_true
  have hroot : (Name.type "Root", object) ∈ definedObjects .bare (Name.type "Root") object :=
    List.mem_cons_self
  have hall := @accessors_restore_key_iff _ lowersAscii_toLower (.object object) object
    rfl "Root" true
    _ hroot
  obtain ⟨hlines, -, huser⟩ :=
    hall ⟨"userId", .any⟩ List.mem_cons_self (hplain _ (by decide))
  obtain ⟨-, -, hmail⟩ := hall ⟨"eMail", .any⟩ (List.mem_cons_of_mem _ List.mem_cons_self)
    (hplain _ (by decide))
  have huserName : naming.fieldName true "userId" = "userId" := by decide +kernel
  have hmailName : naming.fieldName true "eMail" = "eMail" := by decide +kernel
  have huserAccessor : Name.capitalize "userId" = "UserId" := by decide +kernel
  have hmailAccessor : Name.capitalize "eMail" = "EMail" := by decide +kernel
  simp only [huserName, huserAccessor] at hlines huser
  simp only [hmailName, hmailAccessor] at hmail
  have halnum : ∀ key ∈ object.keys, key.toList.all Char.isAlphanum = true := by decide +kernel
  have hascii : ∀ key ∈ object.keys, ∀ c ∈ key.toList, c.toNat < 0x80 :=
    fun key hkey c hc => toNat_lt_of_isAlphanum (List.all_eq_true.mp (halnum key hkey) c hc)
  refine ⟨⟨lowersAscii_toLower, rfl, hplain⟩, (hlines (by decide)).1, ?_, ?_⟩
  · refine (huser (hascii _ (by decide))).mpr ?_
    rintro ⟨c, d, rest, heq, -, hupper⟩
    obtain ⟨-, heq⟩ := List.cons.inj heq
    rw [← (List.cons.inj heq).1] at hupper
    contradiction
  · refine (hmail (hascii _ (by decide))).not.mpr (not_not_intro ?_)
    exact ⟨'e', 'M', _, rfl, by decide, by decide⟩

/-- A key whose second letter is a capital, and the code for it. -/
theorem second_capital_is_lowered :
    Language.java.generate (.object [("eMail", .number (.int 1))]) "Root" true =
      "public class Root \x7b\n    private int eMail;\n\n" ++
        "    public int getEMail() \x7b return eMail; \x7d\n" ++
        "    public void setEMail(int eMail) \x7b this.eMail = eMail; \x7d\n\x7d" ∧
    "@JsonProperty(" ++ quoted "eMail" ++ ")" ∉ fieldLines true ⟨"eMail", .int⟩ ∧
    Name.capitalize (naming.fieldName true "eMail") = "EMail" ∧
    propertyOf Char.toLower "EMail" = "email" := by
  refine ⟨by decide +kernel, ?_, by decide +kernel, by decide +kernel⟩
  have hkey : naming.renames true "eMail" = false := by decide +kernel
  rw [annotation_mem_fieldLines_iff _ ⟨"eMail", .int⟩, hkey]
  exact Bool.false_ne_true

end SampleTypes.Target.Java
