import SampleTypes.Generate
import SampleTypes.Proofs.Target.EscapeSyntax
import SampleTypes.Proofs.Target.FlatPrinters

/-! The keys that Rust and Swift are told. Both are written as JSON writes them, and neither
language knows the escapes of JSON for most control characters. -/
namespace SampleTypes

open Json Layout Target Text

namespace Target

/-- A text of lines with this one among them. A line can hold line breaks, where a name does. -/
def HasLine (text l : String) : Prop := ∃ ls, text = "\n".intercalate ls ∧ l ∈ ls

namespace Rust

def letters : List (Char × Char) :=
  [('n', '\n'), ('r', '\r'), ('t', '\t'), ('\\', '\\'), ('0', '\x00'), ('\'', '\''), ('"', '"')]

/-- Two digits are for characters of ASCII, and in braces there may be underscores between the
digits. A backslash at the end of a line, which JSON never writes, is left out. -/
def escape : List Char → Escape
  | 'x' :: a :: b :: _ =>
    .ofOption (((codeChar? [a, b]).filter (·.toNat < 0x80)).map fun c => (c, 3))
  | 'u' :: cs => codeEscape 6 (· == '_') cs
  | e :: _ => letterEscape letters e
  | [] => .unknown

def strings : EscapeSyntax where
  escape := escape
  forbids c := c == '\r'

example : strings.read 0 "\\x41\\u\x7b1_F600\x7d\"".toList = .text ['A', '😀'] [] := by decide

lemma sharesJson : strings.SharesJson where
  letter := by
    intro p hp cs
    simp only [StringSyntax.shortEscapes, List.mem_cons, List.not_mem_nil, or_false] at hp
    rcases hp with rfl | rfl | rfl | rfl | rfl | rfl | rfl <;> rfl
  code _ := rfl
  forbids c hc := by
    have hreturn : c ≠ '\r' := EscapeSyntax.ne_of_printable hc (by decide)
    simp [strings, hreturn]

lemma printable_snakeWord (key : String) : ∀ c ∈ (snakeWord key).toList, 0x20 ≤ c.toNat := by
  have hcontrol : ∀ n : Fin 32, ((Char.ofNat n).isAlphanum || Char.ofNat n = '_') = false := by
    decide
  intro c hc
  by_contra hlow
  have hfalse := hcontrol ⟨c.toNat, by omega⟩
  rw [Char.ofNat_toNat, mem_snakeWord hc] at hfalse
  cases hfalse

/-- No name has a control character, with the marks of a reserved word or without. -/
lemma printable_fieldName (camel : Bool) (key : String) :
    ∀ c ∈ (naming.fieldName camel key).toList, 0x20 ≤ c.toNat := by
  have hword := printable_snakeWord key
  have hconvert : naming.convert camel key = snakeWord key := by simp only [naming, Convention.rust]
  have hescape : naming.escape (snakeWord key) = rawWord (snakeWord key) := by
    simp only [naming, Convention.rust]
  rw [Convention.fieldName, Convention.safeName, hconvert, hescape]
  split
  · rw [rawWord]
    split
    · rw [addUnderscore, String.toList_append]
      exact List.forall_mem_append.mpr ⟨hword, List.forall_mem_singleton.mpr (by decide)⟩
    · rw [String.toList_append]
      have hraw : ∀ c ∈ ['r', '#'], 0x20 ≤ c.toNat :=
        List.forall_mem_cons.mpr ⟨by decide, List.forall_mem_singleton.mpr (by decide)⟩
      exact List.forall_mem_append.mpr ⟨hraw, hword⟩
  · exact hword

lemma mem_of_mem_stripRaw {name : String} {c : Char} (hc : c ∈ (stripRaw name).toList) :
    c ∈ name.toList := by
  rw [stripRaw] at hc
  split at hc
  · next rest hname =>
    rw [String.toList_ofList] at hc
    rw [hname]
    exact List.mem_cons_of_mem _ (List.mem_cons_of_mem _ hc)
  · exact hc

/-- So every key with one is told. -/
lemma renames_of_control {key : String} {c : Char} (hc : c ∈ key.toList) (hlow : c.toNat < 0x20)
    (camel : Bool) : naming.renames camel key = true := by
  rw [Convention.renames, Convention.isRenamed, bne_iff_ne]
  intro hkey
  have hunescape : ∀ name, naming.unescape name = stripRaw name := by
    simp only [naming, Convention.rust, implies_true]
  rw [hunescape] at hkey
  have hname : c ∈ (naming.fieldName camel key).toList :=
    mem_of_mem_stripRaw (by rwa [hkey])
  have hprintable := printable_fieldName camel key c hname
  omega

/-- The attribute of a renamed key is a line of the code. -/
lemma hasLine_attribute {camel : Bool} {outline : Outline} {schema : Schema}
    (hschema : schema ∈ outline.schemas) {field : Field} (hfield : field ∈ schema.fields)
    (hrenamed : naming.renames camel field.key = true) :
    HasLine (source outline) ("    #[serde(rename = " ++ quoted field.key ++ ")]") := by
  have hnote : "    " ++ ("#[serde(rename = " ++ quoted field.key ++ ")]") ∈
      printer.notes camel field := by
    have hflag : naming.renames camel field.key = naming.renames false field.key := by
      simp only [Convention.renames, Convention.fieldName, naming, Convention.rust]
    rw [hflag] at hrenamed
    simp only [printer, hrenamed, if_true, List.mem_singleton]
  have hmem := mem_flatAll_definitions (flatAll_eq_block camel) hschema
    (FlatPrinter.mem_block_of_mem_notes hfield hnote)
  refine ⟨_, Item.render_eq _ _, List.mem_cons_of_mem _ (List.mem_cons_of_mem _ ?_)⟩
  rwa [← String.append_assoc, ← String.append_assoc] at hmem

end Rust

namespace Swift

def letters : List (Char × Char) :=
  [('0', '\x00'), ('\\', '\\'), ('t', '\t'), ('n', '\n'), ('r', '\r'), ('"', '"'), ('\'', '\'')]

/-- A parenthesis begins an expression. -/
def escape : List Char → Escape
  | '(' :: _ => .expression
  | 'u' :: cs => codeEscape 8 (fun _ => false) cs
  | e :: _ => letterEscape letters e
  | [] => .unknown

def strings : EscapeSyntax where
  escape := escape
  forbids c := c == '\n' || c == '\r'

example : strings.read 0 "\\0\\u\x7b1F600\x7d\"".toList = .text ['\x00', '😀'] [] ∧
    strings.read 0 "\\(key)\"".toList = .expression := by decide

lemma sharesJson : strings.SharesJson where
  letter := by
    intro p hp cs
    simp only [StringSyntax.shortEscapes, List.mem_cons, List.not_mem_nil, or_false] at hp
    rcases hp with rfl | rfl | rfl | rfl | rfl | rfl | rfl <;> rfl
  code _ := rfl
  forbids c hc := by
    have hfeed : c ≠ '\n' := EscapeSyntax.ne_of_printable hc (by decide)
    have hreturn : c ≠ '\r' := EscapeSyntax.ne_of_printable hc (by decide)
    simp [strings, hfeed, hreturn]

/-- The case of a renamed key is a line of the code. -/
lemma hasLine_case {camel : Bool} {outline : Outline} {schema : Schema}
    (hschema : schema ∈ outline.schemas) {field : Field} (hfield : field ∈ schema.fields)
    (hrenamed : naming.renames camel field.key = true) : HasLine (source camel outline)
      ("        case " ++ naming.fieldName camel field.key ++ " = " ++ quoted field.key) := by
  have hcase : caseLine camel field.key =
      "        case " ++ naming.fieldName camel field.key ++ " = " ++ quoted field.key := by
    have hindent : "        case " = "        " ++ "case " := by decide
    rw [caseLine, if_pos hrenamed, hindent]
    simp only [String.append_assoc]
  have hsome : (schema.fields.map (·.key)).any (naming.renames camel) = true :=
    List.any_eq_true.mpr ⟨field.key, List.mem_map_of_mem hfield, hrenamed⟩
  have hcases : caseLine camel field.key ∈ codingKeysLines camel (schema.fields.map (·.key)) := by
    rw [codingKeysLines, if_pos hsome]
    have hkey : caseLine camel field.key ∈ (schema.fields.map (·.key)).map (caseLine camel) :=
      List.mem_map_of_mem (List.mem_map_of_mem hfield)
    exact List.mem_cons_of_mem _ (List.mem_cons_of_mem _ (List.mem_append_left _ hkey))
  have hmem : ∀ isRoot, caseLine camel field.key ∈ printer.block camel isRoot schema := fun _ =>
    List.mem_append_right _ (List.mem_append_left _ hcases)
  refine ⟨_, Item.render_eq _ _, ?_⟩
  rw [← hcase]
  exact mem_flatAll_definitions (flatAll_eq_block camel) hschema hmem

end Swift

end Target

/-- The keys of renamed fields stand in the code as JSON writes them: in the attribute of a field
in Rust, and behind the case of a property in Swift. Both languages read such a literal as the key
just if the key has no control character but line feeds, carriage returns and tabs, and refuse it
otherwise; no expression begins in it. Every key that is refused is one that Rust is told. -/
theorem rename_literals_denote_keys_iff {sample : Json} {object : Members}
    (hobject : sample.described? = some object) (root : String) (camel : Bool) :
    ∀ d ∈ definedObjects .bare (Name.type root) object, ∀ key ∈ d.2.keys,
      let shared := EscapeSyntax.SharesControls key.toList
      (Rust.naming.renames camel key = true →
        HasLine (Language.rust.generate sample root camel)
          ("    #[serde(rename = " ++ quoted key ++ ")]")) ∧
      (Swift.naming.renames camel key = true →
        HasLine (Language.swift.generate sample root camel)
          ("        case " ++ Swift.naming.fieldName camel key ++ " = " ++ quoted key)) ∧
      (¬shared → Rust.naming.renames camel key = true) ∧
      ∀ strings ∈ [Rust.strings, Swift.strings], (strings.Denotes (quoted key) key ↔ shared) ∧
        (strings.Refuses (quoted key) ↔ ¬shared) ∧ ¬strings.Evaluates (quoted key) := by
  intro d hd key hkey shared
  have hschema := Outline.mem_schemas_ofObject hd
  have hfield : ∃ field ∈ (Schema.ofMembers .bare d.1 d.2).fields, field.key = key :=
    Schema.exists_field_of_mem_keys hkey
  obtain ⟨field, hfield, rfl⟩ := hfield
  refine ⟨fun hrenamed => ?_, fun hrenamed => ?_, fun hother => ?_, ?_⟩
  · rw [Language.generate_of_definitions rfl hobject]
    have hline := Rust.hasLine_attribute hschema hfield hrenamed
    exact hline
  · rw [Language.generate_of_definitions rfl hobject]
    exact Swift.hasLine_case hschema hfield hrenamed
  · simp only [shared, EscapeSyntax.SharesControls, EscapeSyntax.IsShared, not_forall] at hother
    obtain ⟨c, hc, hlow, -⟩ := hother
    exact Rust.renames_of_control hc hlow camel
  · have hrust := EscapeSyntax.quoted_outcomes Rust.sharesJson field.key
    have hswift := EscapeSyntax.quoted_outcomes Swift.sharesJson field.key
    exact List.forall_mem_cons.mpr ⟨hrust, List.forall_mem_singleton.mpr hswift⟩

/-- Keys that are renamed in both languages: one of words, one with a tab and one with another
control character. -/
theorem rename_literals_denote_keys_iff_controls :
    let object : Members := [("User id", .null), ("A\tb", .null), ("A\x01", .null)]
    (Json.object object).described? = some object ∧
      (∀ key ∈ object.keys,
        Rust.naming.renames true key = true ∧ Swift.naming.renames true key = true) ∧
      ∀ strings ∈ [Rust.strings, Swift.strings],
        strings.Denotes (quoted "User id") "User id" ∧ strings.Denotes (quoted "A\tb") "A\tb" ∧
          ¬strings.Denotes (quoted "A\x01") "A\x01" := by
  intro object
  have hroot : (Name.type "Root", object) ∈ definedObjects .bare (Name.type "Root") object :=
    List.mem_cons_self
  have hall : ∀ key ∈ object.keys, ∀ strings ∈ [Rust.strings, Swift.strings],
      strings.Denotes (quoted key) key ↔ EscapeSyntax.SharesControls key.toList := by
    intro key hkey strings hstrings
    obtain ⟨-, -, -, houtcomes⟩ :=
      @rename_literals_denote_keys_iff (.object object) object rfl "Root" true _ hroot key hkey
    exact (houtcomes strings hstrings).1
  refine ⟨rfl, by decide +kernel, fun strings hstrings => ⟨?_, ?_, ?_⟩⟩
  · exact (hall _ (by decide) strings hstrings).mpr (by decide +kernel)
  · exact (hall _ (by decide) strings hstrings).mpr (by decide +kernel)
  · exact (hall _ (by decide) strings hstrings).not.mpr (by decide +kernel)

/-- Both languages refuse the literal of a key. -/
theorem rename_literal_is_refused :
    let sample : Json := .object [("A\x01", .number (.int 1))]
    Language.rust.generate sample "Root" true =
      "use serde::\x7bDeserialize, Serialize\x7d;\n\n" ++
        "#[derive(Debug, Clone, Serialize, Deserialize)]\npub struct Root \x7b\n" ++
        "    #[serde(rename = \"A\\u0001\")]\n    pub a_: i64,\n\x7d" ∧
    Language.swift.generate sample "Root" true =
      "struct Root: Codable \x7b\n    var a\x01: Int?\n\n" ++
        "    enum CodingKeys: String, CodingKey \x7b\n" ++
        "        case a\x01 = \"A\\u0001\"\n    \x7d\n\x7d" ∧
    quoted "A\x01" = "\"A\\u0001\"" ∧
    ∀ strings ∈ [Rust.strings, Swift.strings],
      strings.Refuses (quoted "A\x01") ∧ ¬strings.Denotes (quoted "A\x01") "A\x01" := by
  intro sample
  refine ⟨by decide +kernel, by decide +kernel, by decide, ?_⟩
  have hother : ¬EscapeSyntax.SharesControls "A\x01".toList := by decide +kernel
  have hrefused : ∀ g : EscapeSyntax, g.SharesJson →
      g.Refuses (quoted "A\x01") ∧ ¬g.Denotes (quoted "A\x01") "A\x01" := by
    intro g hg
    obtain ⟨hdenotes, hrefuses, -⟩ := EscapeSyntax.quoted_outcomes hg "A\x01"
    exact ⟨hrefuses.mpr hother, hdenotes.not.mpr hother⟩
  exact List.forall_mem_cons.mpr
    ⟨hrefused _ Rust.sharesJson, List.forall_mem_singleton.mpr (hrefused _ Swift.sharesJson)⟩

end SampleTypes
