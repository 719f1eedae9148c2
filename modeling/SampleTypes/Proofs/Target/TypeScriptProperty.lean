import Mathlib.Data.List.Nodup
import SampleTypes.Generate
import SampleTypes.Proofs.Name.Identifier
import SampleTypes.Proofs.Target.FlatPrinters

/-! Properties of TypeScript interfaces. An identifier stands for itself and any other key for
what is in quotes, and neither is read as the other, so the keys of an object are read off the
lines of its interface. -/
namespace SampleTypes

namespace Target.TypeScript

open Json Layout Text

/-- Reads the token of a property, an identifier or a string literal: the key that it denotes, and
what follows it. -/
def readToken? : List Char → Option (String × List Char)
  | '"' :: cs => (readQuoted cs).map fun (s, rest) => (.ofList s, rest)
  | cs =>
    let name := String.ofList (cs.takeWhile Name.isIdentifierRest)
    if Name.isIdentifier name then some (name, cs.dropWhile Name.isIdentifierRest) else none

/-- The key that a token denotes. -/
def denoted? (token : String) : Option String :=
  match readToken? token.toList with
  | some (key, []) => some key
  | _ => none

/-- The key of a property, read off its line, where a token stands between the indentation and a
colon. -/
def lineKey? (line : String) : Option String :=
  match ("  ".toList.isPrefixOf? line.toList).bind readToken? with
  | some (key, ':' :: _) => some key
  | _ => none

/-- The lines for the properties of an object, in an interface of this name. -/
def propertyLines (camel : Bool) (d : String × Members) : List String :=
  (Schema.ofMembers .bare d.1 d.2).fields.map fun field =>
    "  " ++ (propertyToken camel field.key ++ ": " ++ Tokens.typeScript.spell field.type ++ ";")

def interfaceLines (camel : Bool) (d : String × Members) : List String :=
  ("interface " ++ d.1 ++ " \x7b") :: (propertyLines camel d ++ ["\x7d"])

lemma propertyToken_eq (camel : Bool) (key : String) :
    propertyToken camel key = if Name.isIdentifier key then key else quoted key := by
  have hname : Convention.typeScript.fieldName camel key = key := by
    rw [Convention.fieldName, Convention.safeName]
    exact if_neg Bool.false_ne_true
  rw [propertyToken, hname]

lemma readToken?_identifier {key : String} (hkey : Name.isIdentifier key = true) {rest : List Char}
    (hrest : ∀ c ∈ rest.head?, Name.isIdentifierRest c = false) :
    readToken? (key.toList ++ rest) = some (key, rest) := by
  have hchars := Name.forall_isIdentifierRest hkey
  have hstop : rest.takeWhile Name.isIdentifierRest = [] ∧
      rest.dropWhile Name.isIdentifierRest = rest := by
    cases rest with
    | nil => exact ⟨rfl, rfl⟩
    | cons c cs => simp [hrest c rfl]
  have htake : (key.toList ++ rest).takeWhile Name.isIdentifierRest = key.toList := by
    rw [List.takeWhile_append_of_pos hchars, hstop.1, List.append_nil]
  have hdrop : (key.toList ++ rest).dropWhile Name.isIdentifierRest = rest := by
    rw [List.dropWhile_append_of_pos hchars, hstop.2]
  rw [readToken?.eq_def]
  split
  · next cs hcs =>
    obtain ⟨c, tail, htail, -⟩ := Name.exists_toList_eq_cons hkey
    rw [htail] at hchars hcs
    have hquote := hchars c List.mem_cons_self
    rw [(List.cons.inj hcs).1] at hquote
    contradiction
  · rw [htake, hdrop, String.ofList_toList, if_pos hkey]

/-- A token is read as its key, wherever no character follows it that could belong to an
identifier. -/
theorem readToken?_propertyToken (camel : Bool) (key : String) {rest : List Char}
    (hrest : ∀ c ∈ rest.head?, Name.isIdentifierRest c = false) :
    readToken? ((propertyToken camel key).toList ++ rest) = some (key, rest) := by
  rw [propertyToken_eq]
  split
  · next hkey => exact readToken?_identifier hkey hrest
  · rw [toList_quoted, List.cons_append, List.append_assoc, List.singleton_append, readToken?,
      readQuoted_escaped, Option.map_some]
    simp only [String.ofList_toList]

lemma denoted?_propertyToken (camel : Bool) (key : String) :
    denoted? (propertyToken camel key) = some key := by
  have hnil : ∀ c ∈ ([] : List Char).head?, Name.isIdentifierRest c = false := by simp
  have hread := readToken?_propertyToken camel key hnil
  rw [List.append_nil] at hread
  rw [denoted?, hread]

lemma propertyToken_injective (camel : Bool) : Function.Injective (propertyToken camel) := by
  intro key other h
  have hkey := denoted?_propertyToken camel key
  rw [h, denoted?_propertyToken] at hkey
  exact (Option.some.inj hkey).symm

/-- A colon ends every token. -/
lemma isIdentifierRest_colon (cs : List Char) :
    ∀ c ∈ (':' :: cs).head?, Name.isIdentifierRest c = false := by
  rintro c ⟨rfl⟩
  decide

/-- Two tokens that end in front of a colon are the same if the texts are. -/
lemma propertyToken_append_injective {camel flag : Bool} {key other : String}
    {rest rest' : List Char} (h : (propertyToken camel key).toList ++ ':' :: rest =
      (propertyToken flag other).toList ++ ':' :: rest') : key = other ∧ rest = rest' := by
  have hread := readToken?_propertyToken camel key (isIdentifierRest_colon rest)
  rw [h, readToken?_propertyToken flag other (isIdentifierRest_colon rest')] at hread
  obtain ⟨hkey, htail⟩ := Prod.mk.inj (Option.some.inj hread)
  exact ⟨hkey.symm, (List.cons.inj htail).2.symm⟩

lemma lineKey?_property (camel : Bool) (key rest : String) :
    lineKey? ("  " ++ (propertyToken camel key ++ ": " ++ rest)) = some key := by
  have hline : "  ".toList.isPrefixOf? ("  " ++ (propertyToken camel key ++ ": " ++ rest)).toList =
      some ((propertyToken camel key).toList ++ ':' :: ' ' :: rest.toList) := by
    rw [List.isPrefixOf?_eq_some_iff_append_eq]
    simp [String.toList_append]
  have hread := readToken?_propertyToken camel key (isIdentifierRest_colon (' ' :: rest.toList))
  rw [lineKey?, hline, Option.bind_some, hread]
  rfl

lemma filterMap_lineKey?_propertyLines (camel : Bool) (d : String × Members) :
    (propertyLines camel d).filterMap lineKey? = d.2.keys := by
  have hkey : ∀ field : Field, lineKey? ("  " ++ (propertyToken camel field.key ++ ": " ++
      Tokens.typeScript.spell field.type ++ ";")) = some field.key := by
    intro field
    simpa only [String.append_assoc] using lineKey?_property camel field.key _
  rw [propertyLines, List.filterMap_map]
  simp only [Function.comp_def, hkey, List.filterMap_eq_map', Schema.ofMembers, List.map_map]
  rfl

/-- Neither the header nor the closing brace is read as a property. -/
lemma filterMap_lineKey?_interfaceLines (camel : Bool) (d : String × Members) :
    (interfaceLines camel d).filterMap lineKey? = d.2.keys := by
  have hheader : lineKey? ("interface " ++ d.1 ++ " \x7b") = none := by
    have hindent : "  ".toList.isPrefixOf? ("interface " ++ d.1 ++ " \x7b").toList = none := by
      simp [String.toList_append, List.isPrefixOf?]
    rw [lineKey?, hindent]
    rfl
  have hclose : lineKey? "\x7d" = none := by decide
  rw [interfaceLines, List.filterMap_cons_none hheader, List.filterMap_append,
    filterMap_lineKey?_propertyLines]
  simp [hclose]

/-- Code is an interface for every object, with a blank line between two. -/
lemma source_eq_interfaces (camel : Bool) (name : String) (object : Members) :
    source camel (Outline.ofObject .bare name object) = "\n\n".intercalate
      ((definedObjects .bare name object).map fun d =>
        "\n".intercalate (interfaceLines camel d)) := by
  have hblock : ∀ isRoot d,
      printer.block camel isRoot (Schema.ofMembers .bare d.1 d.2) = interfaceLines camel d := by
    intro isRoot d
    have hfields : (printer.declarations camel (Schema.ofMembers .bare d.1 d.2).fields).flatten =
        propertyLines camel d :=
      FlatPrinter.flatten_declarations_eq_map (fun _ => rfl) (fun _ _ => rfl) _
    rw [FlatPrinter.block, hfields]
    rfl
  have hblocks : printer.blocks camel (Outline.ofObject .bare name object).schemas =
      (definedObjects .bare name object).map (interfaceLines camel) := by
    rw [Outline.schemas_ofObject, definedObjects, List.map_cons, FlatPrinter.blocks, List.map_cons,
      List.map_map, hblock]
    congr 1
    exact List.map_congr_left fun d _ => hblock false d
  rw [source, Item.render_eq, flatAll_definitions_eq (flatAll_eq_block camel), intercalate_spread,
    ← blocks_schemas, hblocks, List.map_map]
  · rfl
  · simp [FlatPrinter.block, printer]
  · intro b hb
    obtain ⟨schema, -, rfl⟩ := List.mem_map.mp hb
    simp [FlatPrinter.block, printer]

/-- Every interface lists the keys of its object. Code is an interface for each object, and the
keys that are read off the lines of one are those of its object in order. The token of a key is
the key itself, if that is an identifier, and otherwise a string literal on one line that is read
as the key; either way it denotes the key, so no two keys have the same token. -/
theorem interfaces_list_keys {sample : Json} {object : Members}
    (hobject : sample.described? = some object) (root : String) (camel : Bool) :
    let objects := definedObjects .bare (Name.type root) object
    Language.typeScript.generate sample root camel =
      "\n\n".intercalate (objects.map fun d => "\n".intercalate (interfaceLines camel d)) ∧
    (∀ d ∈ objects, let tokens := d.2.keys.map (propertyToken camel)
      (interfaceLines camel d).filterMap lineKey? = d.2.keys ∧
        tokens.map denoted? = d.2.keys.map some ∧ (tokens.Nodup ↔ d.2.keys.Nodup)) ∧
    (∀ key, let token := propertyToken camel key
      if Name.isIdentifier key then token = key
      else Name.isIdentifier token = false ∧ OneLine token ∧
        ∃ body, token.toList = '"' :: body ∧ readQuoted body = some (key.toList, [])) ∧
    (∀ key other, propertyToken camel key = propertyToken camel other → key = other) ∧
    ∀ key other rest rest', (propertyToken camel key).toList ++ ':' :: rest =
      (propertyToken camel other).toList ++ ':' :: rest' → key = other ∧ rest = rest' := by
  intro objects
  refine ⟨?_, fun d _ => ⟨filterMap_lineKey?_interfaceLines camel d, ?_, ?_⟩, fun key => ?_,
    fun key other h => propertyToken_injective camel h,
    fun key other rest rest' h => propertyToken_append_injective h⟩
  · rw [Language.generate_of_definitions rfl hobject]
    exact source_eq_interfaces camel (Name.type root) object
  · rw [List.map_map]
    exact List.map_congr_left fun key _ => denoted?_propertyToken camel key
  · exact List.nodup_map_iff (propertyToken_injective camel)
  · simp only [propertyToken_eq]
    split
    · rfl
    · refine ⟨?_, oneLine_quoted key, _, toList_quoted key, readQuoted_escaped key.toList []⟩
      simp [Name.isIdentifier, toList_quoted, Name.isIdentifierStart]

/-- Keys that are the same but for quotes, and keys with a backslash or a line feed in them. -/
theorem interfaces_list_keys_quotes :
    let inner : Members := [("line\nfeed", .bool true), ("a\\", .null)]
    let object : Members := [("a", .null), ("\"a\"", .bool true), ("a-b", .object inner)]
    let lines := interfaceLines true ("Root", object)
    (Json.object object).described? = some object ∧
      Language.typeScript.generate (.object object) "Root" true =
        "\n".intercalate lines ++ "\n\n" ++
          "interface AB \x7b\n  \"line\\nfeed\": boolean;\n  \"a\\\\\": any;\n\x7d" ∧
      lines = ["interface Root \x7b", "  a: any;", "  \"\\\"a\\\"\": boolean;",
        "  \"a-b\": AB;", "\x7d"] ∧
      lines.filterMap lineKey? = ["a", "\"a\"", "a-b"] := by
  intro inner object lines
  obtain ⟨hcode, hlines, -⟩ := @interfaces_list_keys (.object object) object rfl "Root" true
  have hname : Name.type "Root" = "Root" := by decide +kernel
  rw [hname] at hcode hlines
  refine ⟨rfl, ?_, by decide +kernel, (hlines _ List.mem_cons_self).1⟩
  rw [hcode]
  decide +kernel

end Target.TypeScript

end SampleTypes
