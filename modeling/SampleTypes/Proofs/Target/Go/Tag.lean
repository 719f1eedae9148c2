import SampleTypes.Generate
import SampleTypes.Proofs.Target.FlatPrinters
import SampleTypes.Proofs.Target.StringSyntax
import SampleTypes.Proofs.Text.Backslash

/-! Tags of Go fields. A tag is a string literal, and its value holds the key in another one, so a
key is written twice over. Both layers are read back: the tag is found with the key in it,
whatever the key. -/
namespace SampleTypes.Target

open Json Layout Text StringSyntax

/-- The text of a literal, if nothing follows it. -/
def Reading.whole? : Reading → Option (List Char)
  | text s [] => some s
  | _ => none

namespace Go

/-- Letters behind a backslash. -/
def letters : List (Char × Char) :=
  [('a', '\x07'), ('b', '\x08'), ('f', '\x0c'), ('n', '\n'), ('r', '\r'), ('t', '\t'),
    ('v', '\x0b'), ('\\', '\\'), ('"', '"')]

/-- Interpreted strings, less the escapes for single bytes and for codes of eight digits. -/
def strings : StringSyntax where
  quote := '"'
  letter? c := letters.lookup c
  opens _ _ := false
  forbids c := c == '\n'

/-- Reads a raw string from after its first backtick. Returns do not belong to it. -/
def readRaw : List Char → Reading
  | [] => .refused
  | c :: cs =>
    if c = '`' then .text [] cs
    else if c = '\r' then readRaw cs
    else (readRaw cs).cons c

/-- Reads a string, which is raw between backticks and interpreted between quotes. -/
def readLiteral : List Char → Reading
  | '`' :: cs => readRaw cs
  | '"' :: cs => strings.read 0 cs
  | _ => .refused

/-- A literal, of either kind, that is read as a text and ends with its last character. -/
def Denotes (literal s : String) : Prop :=
  ∀ rest, readLiteral (literal.toList ++ rest) = .text s.toList rest

/-- What a tag holds under a name: an interpreted string behind the name and a colon. -/
def tagValue? (name literal : String) : Option String := do
  let content ← (readLiteral literal.toList).whole?
  let body ← (name ++ ":\"").toList.isPrefixOf? content
  let value ← (strings.read 0 body).whole?
  return .ofList value

lemma holdsJson : strings.HoldsJson where
  quote := rfl
  code := rfl
  opens _ _ h := by cases h
  forbids c hc := by
    have hfeed : c ≠ '\n' := by
      rintro rfl
      exact absurd hc (by decide)
    simpa [strings] using hfeed

/-- All escapes of JSON are escapes here. -/
lemma knows : ∀ c : Char, strings.Knows c := knows_of_letters (by decide)

lemma denotes_quoted (s : String) : strings.Denotes (quoted s) s := by
  refine (denotes_quoted_iff holdsJson s).mpr ⟨fun c _ => knows c, ?_⟩
  rintro ⟨c, d, hopens, -⟩
  cases hopens

lemma backtick_mem_escapeChar_iff (c : Char) : '`' ∈ escapeChar c ↔ c = '`' := by
  have hdigit : ∀ n : Nat, n < 16 → '`' ≠ n.digitChar := by decide
  constructor
  · intro h
    have hwritten := written_escapeChar c
    generalize escapeChar c = written at h hwritten
    cases hwritten with
    | short e hread _ =>
      have he : e = '`' := by simpa [eq_comm] using h
      rw [he] at hread
      cases hread
    | code hc =>
      have hhigh := hdigit (c.toNat / 16) (by omega)
      have hlow := hdigit (c.toNat % 16) (by omega)
      simp [hhigh, hlow] at h
    | plain _ _ _ => exact (List.mem_singleton.mp h).symm
  · rintro rfl
    decide

/-- A tag has a backtick in it just if its key has. -/
lemma backtick_mem_iff (key : String) :
    '`' ∈ ("json:" ++ quoted key).toList ↔ '`' ∈ key.toList := by
  have hname : '`' ∉ "json:".toList := by decide
  rw [String.toList_append, List.mem_append, or_iff_right hname, toList_quoted]
  simp [backtick_mem_escapeChar_iff]

/-- A raw string ends at its next backtick. -/
lemma readRaw_append {s : List Char} (h : ∀ c ∈ s, c ≠ '`' ∧ c ≠ '\r') (rest : List Char) :
    readRaw (s ++ '`' :: rest) = .text s rest := by
  induction s with
  | nil => rfl
  | cons c s ih =>
    obtain ⟨⟨hbacktick, hreturn⟩, hs⟩ := List.forall_mem_cons.mp h
    rw [List.cons_append, readRaw, if_neg hbacktick, if_neg hreturn, ih hs]
    rfl

/-- In a tag too, backslashes go before quotes. -/
lemma flatMap_escapeTagChar (s : List Char) :
    s.flatMap escapeTagChar = backslashed '"' (backslashed '\\' s) :=
  flatMap_eq_foldl_backslashed ['"'] (by decide) (fun c => by simp [escapeTagChar]) s

lemma read_escapeTagChar {c : Char} (hc : c ≠ '\n') (cs : List Char) :
    strings.read 0 (escapeTagChar c ++ cs) = (strings.read 0 cs).cons c := by
  rw [escapeTagChar]
  by_cases hescaped : c = '\\' ∨ c = '"'
  · rw [if_pos hescaped]
    rcases hescaped with rfl | rfl <;> rfl
  · obtain ⟨hbackslash, hne⟩ := not_or.mp hescaped
    have hquote : c ≠ strings.quote := hne
    have hforbids : strings.forbids c = false := by simpa [strings] using hc
    rw [if_neg hescaped, List.singleton_append, StringSyntax.read, if_neg hquote, if_neg hbackslash,
      hforbids]
    rfl

lemma read_flatMap_escapeTagChar {s : List Char} (h : ∀ c ∈ s, c ≠ '\n') (rest : List Char) :
    strings.read 0 (s.flatMap escapeTagChar ++ '"' :: rest) = .text s rest := by
  induction s with
  | nil => rfl
  | cons c s ih =>
    obtain ⟨hc, hs⟩ := List.forall_mem_cons.mp h
    rw [List.flatMap_cons, List.append_assoc, read_escapeTagChar hc, ih hs]
    rfl

/-- A tag in quotes is read back if it stands on one line. -/
lemma denotes_interpreted {s : String} (h : OneLine s) :
    strings.Denotes ("\"" ++ .ofList (s.toList.flatMap escapeTagChar) ++ "\"") s := by
  refine ⟨s.toList.flatMap escapeTagChar ++ ['"'], by simp [strings], fun rest => ?_⟩
  rw [List.append_assoc, List.singleton_append]
  exact read_flatMap_escapeTagChar (fun c hc => (h c hc).1) rest

lemma denotes_of_interpreted {literal s : String} (h : strings.Denotes literal s) :
    Denotes literal s := by
  obtain ⟨body, hliteral, hread⟩ := h
  intro rest
  rw [hliteral]
  exact hread rest

lemma denotes_raw {s : String} (h : ∀ c ∈ s.toList, c ≠ '`' ∧ c ≠ '\r') :
    Denotes ("`" ++ s ++ "`") s := by
  intro rest
  have hliteral : ("`" ++ s ++ "`").toList ++ rest = '`' :: (s.toList ++ '`' :: rest) := by simp
  rw [hliteral]
  exact readRaw_append h rest

/-- A raw tag with nothing that a raw string cannot hold, or an interpreted one for the
same text. -/
lemma tag_cases (key : String) :
    let value := "json:" ++ quoted key
    if '`' ∈ key.toList then strings.Denotes (tag key) value ∧
      (tag key).toList = '"' :: (backslashed '"' (backslashed '\\' value.toList) ++ ['"'])
    else tag key = "`" ++ value ++ "`" ∧ ∀ c ∈ value.toList, c ≠ '`' ∧ c ≠ '\r' := by
  intro value
  have hvalue : OneLine value := (oneLine_append _ _).mpr ⟨by decide, oneLine_quoted key⟩
  have hcontains : value.toList.contains '`' = true ↔ '`' ∈ key.toList :=
    List.contains_iff_mem.trans (backtick_mem_iff key)
  have htag : tag key = tagLiteral value := rfl
  rw [htag, tagLiteral]
  split
  · next h =>
    rw [if_pos (hcontains.mpr h)]
    refine ⟨denotes_interpreted hvalue, ?_⟩
    simp [flatMap_escapeTagChar]
  · next h =>
    rw [if_neg (hcontains.not.mpr h)]
    refine ⟨rfl, fun c hc => ⟨?_, (hvalue c hc).2⟩⟩
    rintro rfl
    exact h ((backtick_mem_iff key).mp hc)

lemma denotes_tag (key : String) : Denotes (tag key) ("json:" ++ quoted key) := by
  have hcases := tag_cases key
  simp only at hcases
  split at hcases
  · exact denotes_of_interpreted hcases.1
  · rw [hcases.1]
    exact denotes_raw hcases.2

/-- Under its name a tag holds the key. -/
theorem tagValue?_tag (key : String) : tagValue? "json" (tag key) = some key := by
  obtain ⟨body, hbody, hread⟩ := denotes_quoted key
  have hcontent : readLiteral (tag key).toList = .text ("json:" ++ quoted key).toList [] := by
    have htag := denotes_tag key []
    rwa [List.append_nil] at htag
  have hname : ("json" ++ ":\"").toList.isPrefixOf? ("json:" ++ quoted key).toList = some body := by
    rw [List.isPrefixOf?_eq_some_iff_append_eq, String.toList_append, String.toList_append, hbody]
    rfl
  have hkey : strings.read 0 body = .text key.toList [] := by
    have hrest := hread []
    rwa [List.append_nil] at hrest
  simp only [tagValue?, hcontent, Reading.whole?, Option.bind_eq_bind,
    Option.bind_some, hname, hkey, String.ofList_toList, Option.pure_def]

/-- Every field of an object stands in the code, with its tag behind its name and type. -/
lemma fieldLine_infix_generate {sample : Json} {object : Members}
    (hobject : sample.described? = some object) (root : String) (camel : Bool)
    {d : String × Members} (hd : d ∈ definedObjects .bare (Name.type root) object) {field : Field}
    (hfield : field ∈ (Schema.ofMembers .bare d.1 d.2).fields) :
    ("\t" ++ fieldLine camel field).toList <:+:
    (Language.go.generate sample root camel).toList := by
  have hfields : (printer.declarations camel (Schema.ofMembers .bare d.1 d.2).fields).flatten =
      (Schema.ofMembers .bare d.1 d.2).fields.map fun field => "\t" ++ fieldLine camel field :=
    FlatPrinter.flatten_declarations_eq_map (fun _ => rfl) (fun _ _ => rfl) _
  have hmem : ∀ isRoot, "\t" ++ fieldLine camel field ∈
      printer.block camel isRoot (Schema.ofMembers .bare d.1 d.2) := by
    intro isRoot
    rw [FlatPrinter.block, hfields]
    exact List.mem_append_left _ (List.mem_append_right _ (List.mem_map.mpr ⟨field, hfield, rfl⟩))
  have hschema := Outline.mem_schemas_ofObject hd
  rw [Language.generate_of_definitions rfl hobject, source, Item.render_eq]
  exact infix_intercalate (mem_flatAll_definitions (flatAll_eq_block camel) hschema hmem)

/-- The tag of a key is a literal on one line for the name and the key in quotes: a raw one with
nothing in it that would end or change it, or for a key with backticks an interpreted one, where a
backslash is put before every backslash and then before every quote. The key is read back from its
quotes, so no two keys have the same tag, and wherever an object has the key, its field stands in
the code with this tag. -/
theorem tag_recovers_key (key : String) :
    let value := "json:" ++ quoted key
    (if '`' ∈ key.toList then strings.Denotes (tag key) value ∧
        (tag key).toList = '"' :: (backslashed '"' (backslashed '\\' value.toList) ++ ['"'])
      else tag key = "`" ++ value ++ "`" ∧ ∀ c ∈ value.toList, c ≠ '`' ∧ c ≠ '\r') ∧
    Denotes (tag key) value ∧ OneLine (tag key) ∧
    readQuoted (quoted key).toList.tail = some (key.toList, []) ∧
    (∀ other, tag key = tag other → key = other) ∧
    ∀ {sample : Json} {object : Members}, sample.described? = some object →
      ∀ (root : String) (camel : Bool), ∀ d ∈ definedObjects .bare (Name.type root) object,
      ∀ field ∈ (Schema.ofMembers .bare d.1 d.2).fields, field.key = key →
        ("\t" ++ (Convention.go.fieldName camel key ++ " " ++ Tokens.go.spell field.type ++ " " ++
          tag key)).toList <:+: (Language.go.generate sample root camel).toList := by
  refine ⟨tag_cases key, denotes_tag key, oneLine_tag key, ?_, ?_, ?_⟩
  · rw [toList_quoted, List.tail_cons]
    exact readQuoted_escaped key.toList []
  · intro other htag
    have hkeys := tagValue?_tag key
    rw [htag, tagValue?_tag other] at hkeys
    exact (Option.some.inj hkeys).symm
  · rintro sample object hobject root camel d hd field hfield rfl
    exact fieldLine_infix_generate hobject root camel hd hfield

/-- A key with a quote and a backtick. -/
theorem tag_recovers_key_backtick :
    let key := "a\"b`"
    let object : Members := [(key, .number (.int 1))]
    let tagged := "\"json:\\\"a\\\\\\\"b`\\\"\""
    ((Json.object object).described? = some object ∧ '`' ∈ key.toList) ∧ tag key = tagged ∧
    strings.Denotes tagged "json:\"a\\\"b`\"" ∧
    ("\t" ++ ("A\"b`" ++ " " ++ "int" ++ " " ++ tagged)).toList <:+:
      (Language.go.generate (.object object) "Root" true).toList := by
  intro key object tagged
  have hbacktick : '`' ∈ key.toList := by decide
  have htag : tag key = tagged := by decide +kernel
  have hvalue : "json:" ++ quoted key = "json:\"a\\\"b`\"" := by decide +kernel
  have hname : Convention.go.fieldName true key = "A\"b`" := by decide +kernel
  have hroot : (Name.type "Root", object) ∈ definedObjects .bare (Name.type "Root") object :=
    List.mem_cons_self
  obtain ⟨hdenotes, -, -, -, -, hcode⟩ := tag_recovers_key key
  have hline := @hcode (.object object) object rfl "Root" true _ hroot ⟨key, .int⟩
    List.mem_cons_self rfl
  rw [if_pos hbacktick, htag, hvalue] at hdenotes
  rw [hname, htag] at hline
  exact ⟨⟨rfl, hbacktick⟩, htag, hdenotes.1, hline⟩

end Go

end SampleTypes.Target
