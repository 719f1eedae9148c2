import SampleTypes.Proofs.Layout.Page
import SampleTypes.Proofs.Target.Convention
import SampleTypes.Target.Swift

/-! Keys and the properties that stand for them. A property that is not told its key is seen under
exactly this key, and only those that would be seen under another one are told. -/
namespace SampleTypes.Target

open Layout

lemma toList_stripBackticks (name : String) : (stripBackticks name).toList =
    ((name.toList.dropWhile (· = '`')).reverse.dropWhile (· = '`')).reverse := by
  rw [stripBackticks, String.toList_ofList]

lemma dropWhile_backtick {cs : List Char} (h : cs.head? ≠ some '`') :
    cs.dropWhile (· = '`') = cs := by
  cases cs with
  | nil => rfl
  | cons c cs =>
    have hc : c ≠ '`' := fun hc => h (by rw [hc]; rfl)
    exact List.dropWhile_cons_of_neg (by simpa using hc)

/-- Without backticks at its ends, a name is all that is left of it. -/
lemma stripBackticks_of_not_ticked {name : String} (h : ¬Name.Ticked name.toList) :
    stripBackticks name = name := by
  obtain ⟨hhead, hlast⟩ := not_or.mp h
  rw [← String.toList_inj, toList_stripBackticks, dropWhile_backtick hhead, dropWhile_backtick,
    List.reverse_reverse]
  rwa [List.head?_reverse]

/-- And what is left of any name has none. -/
lemma not_ticked_stripBackticks (name : String) : ¬Name.Ticked (stripBackticks name).toList := by
  have hdrop : ∀ cs : List Char, (cs.dropWhile (· = '`')).head? ≠ some '`' := by
    intro cs hcs
    have h := List.head?_dropWhile_not (fun c => decide (c = '`')) cs
    rw [hcs] at h
    simp at h
  rw [toList_stripBackticks]
  rintro (h | h)
  · -- The first character that is left was the last of the reversed text before its own drop.
    rw [List.head?_reverse] at h
    obtain ⟨t, ht⟩ := List.dropWhile_suffix (fun c => decide (c = '`'))
      (l := (name.toList.dropWhile (· = '`')).reverse)
    refine hdrop name.toList ?_
    rw [← List.getLast?_reverse, ← ht, List.getLast?_append, h]
    rfl
  · rw [List.getLast?_reverse] at h
    exact hdrop _ h

/-- No name in snake case has the mark of a raw form. -/
lemma hash_notMem_snakeWord (key : String) : '#' ∉ (snakeWord key).toList := by
  intro h
  exact absurd (mem_snakeWord h) (by decide)

lemma stripRaw_of_notMem {name : String} (h : '#' ∉ name.toList) : stripRaw name = name := by
  rw [stripRaw]
  split
  · next rest hname => simp [hname] at h
  · rfl

namespace Convention

/-- The conventions under which a property may have to be told its key. -/
def telling : List Convention := [swift, kotlin, java, rust, cSharp, objectiveC]

/-- Whether a reserved word is only marked, by backticks around it or as a raw name. -/
def marks (c : Convention) (word : String) : Bool :=
  c.escape word = inBackticks word || c.escape word = "r#" ++ word

/-- What a serializer sees of the property for a key: its name, less the marks of a
reserved word. -/
def seenName (c : Convention) (camel : Bool) (key : String) : String :=
  let word := c.convert camel key
  if c.isReserved word && c.marks word then word else c.fieldName camel key

lemma reserved_isAlpha :
    ∀ c ∈ telling, ∀ word ∈ c.reserved, word.toList.all Char.isAlpha = true := by
  decide +kernel

/-- What is written for a reserved word has a character that no reserved word has. -/
lemma isReserved_escape {c : Convention} (hc : c ∈ telling) {word : String}
    (hword : word ∈ c.reserved) : c.isReserved (c.escape word) = false := by
  by_contra h
  have hescape : c.escape word ∈ c.reserved :=
    List.contains_iff_mem.mp ((Bool.not_eq_false _).mp h)
  have halpha := reserved_isAlpha c hc _ hescape
  simp only [telling, List.mem_cons, List.not_mem_nil, or_false] at hc
  rcases hc with rfl | rfl | rfl | rfl | rfl | rfl
  · simp [swift, inBackticks] at halpha
  · simp [kotlin, inBackticks] at halpha
  · simp [java, addUnderscore] at halpha
  · simp only [rust, rawWord] at halpha
    split at halpha
    · simp [addUnderscore] at halpha
    · simp at halpha
  · contradiction
  · contradiction

/-- Marks are all that is taken off again. -/
lemma unescape_escape : ∀ c ∈ telling, ∀ word ∈ c.reserved,
    c.unescape (c.escape word) = if c.marks word then word else c.escape word := by
  decide +kernel

/-- Nothing is taken off a name of its own, unless the key brings backticks that are then missed. -/
lemma unescape_convert {c : Convention} (hc : c ∈ telling) {camel : Bool} {key : String}
    (h : ¬Name.Ticked key.toList ∨ c.unescape (c.convert camel key) = key) :
    c.unescape (c.convert camel key) = c.convert camel key := by
  have hproperty : (¬Name.Ticked key.toList ∨ stripBackticks (Name.property camel key) = key) →
      stripBackticks (Name.property camel key) = Name.property camel key := by
    intro hkey
    have hticked : ¬Name.Ticked key.toList := by
      rcases hkey with hkey | hkey
      · exact hkey
      · rw [← hkey]
        exact not_ticked_stripBackticks _
    exact stripBackticks_of_not_ticked fun hname => hticked (Name.ticked_of_property hname)
  have hrust : rust.unescape (rust.convert camel key) = stripRaw (snakeWord key) := by
    simp only [rust]
  have hjava : java.unescape = id := rfl
  have hcSharp : cSharp.unescape = id := rfl
  have hobjectiveC : objectiveC.unescape = id := rfl
  simp only [telling, List.mem_cons, List.not_mem_nil, or_false] at hc
  rcases hc with rfl | rfl | rfl | rfl | rfl | rfl
  · exact hproperty h
  · exact hproperty h
  · rw [hjava, id_eq]
  · rw [hrust]
    have hconvert : rust.convert camel key = snakeWord key := by simp only [rust]
    rw [hconvert]
    exact stripRaw_of_notMem (hash_notMem_snakeWord key)
  · rw [hcSharp, id_eq]
  · rw [hobjectiveC, id_eq]

lemma isReserved_fieldName {c : Convention} (hc : c ∈ telling) (camel : Bool) (key : String) :
    c.isReserved (c.fieldName camel key) = false := by
  rw [fieldName, safeName]
  split
  · next h => exact isReserved_escape hc (List.contains_iff_mem.mp h)
  · next h => simpa using h

/-- What a convention takes for the name under which a property is seen is that name. -/
lemma unescape_fieldName {c : Convention} (hc : c ∈ telling) {camel : Bool} {key : String}
    (h : ¬Name.Ticked key.toList ∨ c.renames camel key = false) :
    c.unescape (c.fieldName camel key) = c.seenName camel key := by
  rw [seenName]
  cases hreserved : c.isReserved (c.convert camel key) with
  | true =>
    have hescape := unescape_escape c hc _ (List.contains_iff_mem.mp hreserved)
    rw [fieldName, safeName, if_pos hreserved, hescape]
    simp
  | false =>
    have hname : c.fieldName camel key = c.convert camel key := by
      simp [fieldName, safeName, hreserved]
    simp only [Bool.false_and, Bool.false_eq_true, if_false]
    rw [hname]
    refine unescape_convert hc (h.imp id fun h => ?_)
    simpa [renames, isRenamed, hname] using h

end Convention

namespace Swift

/-- The line that opens the coding keys of a struct. -/
def codingKeysLine : String := "    enum CodingKeys: String, CodingKey \x7b"

/-- The case of a key: its property, and the key itself where the property is renamed. -/
def caseLine (camel : Bool) (key : String) : String :=
  "        " ++ ("case " ++ naming.fieldName camel key ++
    if naming.renames camel key then " = " ++ Json.quoted key else "")

/-- The coding keys of an object, a blank line before them. -/
def codingKeysLines (camel : Bool) (keys : List String) : List String :=
  if keys.any (naming.renames camel) then
    "" :: codingKeysLine :: (keys.map (caseLine camel) ++ ["    \x7d"])
  else []

lemma indented_codingKey (camel : Bool) (field : Field) :
    (Indent.spaces 4).indented 2 (codingKey camel field) = caseLine camel field.key := by
  have hindent : (Indent.spaces 4).times 2 = "        " := by decide
  rw [codingKey, caseLine, Convention.renames]
  split
  · rw [Indent.indented, if_neg (by simp), hindent, String.append_assoc]
  · rw [Indent.indented, if_neg (by simp), hindent, String.append_empty]

lemma flatAll_codingKeys (camel : Bool) (fields : List Field) :
    Item.flatAll (.spaces 4) 1 (codingKeys camel fields) =
      codingKeysLines camel (fields.map (·.key)) := by
  have hopen : (Indent.spaces 4).indented 1 "enum CodingKeys: String, CodingKey \x7b" =
      codingKeysLine := by decide
  have hclose : (Indent.spaces 4).indented 1 "\x7d" = "    \x7d" := by decide
  rw [codingKeys, codingKeysLines, List.any_map]
  simp only [Function.comp_def]
  split
  · simp only [Item.flatAll, Item.flat, Item.flatAll_lines, List.map_map, Function.comp_def,
      Nat.reduceAdd, indented_codingKey, hopen, hclose, List.append_nil, List.singleton_append]
  · rfl

lemma indented_property (camel : Bool) (field : Field) :
    (Indent.spaces 4).indented 1 (property camel field) = "    " ++ property camel field := by
  have hindent : (Indent.spaces 4).times 1 = "    " := by decide
  rw [Indent.indented, if_neg (by simp [property]), hindent]

/-- The lines of a struct: its properties, and then its coding keys. -/
lemma flatAll_definition (camel : Bool) (schema : Schema) :
    Item.flatAll (.spaces 4) 0 (definition camel schema) =
      ("struct " ++ schema.name ++ ": Codable \x7b") ::
        (schema.fields.map (fun field => "    " ++ property camel field) ++
          codingKeysLines camel (schema.fields.map (·.key)) ++ ["\x7d"]) := by
  simp only [definition, Item.flatAll, Item.flat, Item.flatAll_append, Item.flatAll_lines,
    Nat.zero_add, List.map_map, Function.comp_def, flatAll_codingKeys, indented_property,
    Indent.indented_zero, List.append_nil]

/-- No other line of a struct can be taken for the one that opens the coding keys. -/
lemma codingKeysLine_mem_iff (camel : Bool) (schema : Schema) :
    codingKeysLine ∈ Item.flatAll (.spaces 4) 0 (definition camel schema) ↔
      ∃ field ∈ schema.fields, naming.renames camel field.key = true := by
  have hheader : codingKeysLine ≠ "struct " ++ schema.name ++ ": Codable \x7b" := by
    intro h
    have hhead := congrArg (fun s => s.toList.head?) h
    simp [codingKeysLine] at hhead
  have hproperty : ∀ field : Field, "    " ++ property camel field ≠ codingKeysLine := by
    intro field h
    have hfifth := congrArg (fun s => s.toList[4]?) h
    simp [codingKeysLine, property] at hfifth
  have hclose : codingKeysLine ≠ "\x7d" := by decide
  rw [flatAll_definition, codingKeysLines, List.any_map]
  simp only [List.mem_cons, List.mem_append, List.mem_map, hheader, hclose, hproperty, and_false,
    exists_false, false_or, or_false, List.not_mem_nil]
  split
  · next h => simpa using h
  · next h => simpa using h

end Swift

/-- A property is no reserved word. One that is not told its key is seen under exactly this key, and
one that is told it would be seen under another one, unless the key has a backtick at an end. In
Swift the coding keys are there as soon as some property is renamed, and then name every property of
the object in order, with the keys of the renamed ones. -/
theorem properties_are_seen_as_keys :
    (∀ c ∈ Convention.telling, ∀ (camel : Bool) (key : String),
      c.isReserved (c.fieldName camel key) = false ∧
        (c.renames camel key = false → c.seenName camel key = key) ∧
        (c.renames camel key = true → key.toList.head? ≠ some '`' →
          key.toList.getLast? ≠ some '`' → c.seenName camel key ≠ key)) ∧
    ∀ (camel : Bool) (name : String) (members : Members),
      let schema := Schema.ofMembers .bare name members
      let lines := Item.flatAll (.spaces 4) 0 (Swift.definition camel schema)
      Item.render (.spaces 4) (Swift.definition camel schema) = "\n".intercalate lines ∧
        (Swift.codingKeysLine ∈ lines ↔
          ∃ key ∈ members.keys, Convention.swift.renames camel key = true) ∧
        lines = ("struct " ++ name ++ ": Codable \x7b") ::
          (schema.fields.map (fun field => "    " ++ Swift.property camel field) ++
            Swift.codingKeysLines camel members.keys ++ ["\x7d"]) := by
  refine ⟨fun c hc camel key => ⟨Convention.isReserved_fieldName hc camel key, ?_, ?_⟩, ?_⟩
  · intro h
    rw [← Convention.unescape_fieldName hc (Or.inr h)]
    simpa [Convention.renames, Convention.isRenamed] using h
  · intro h hhead hlast
    rw [← Convention.unescape_fieldName hc (Or.inl (not_or.mpr ⟨hhead, hlast⟩))]
    simpa [Convention.renames, Convention.isRenamed] using h
  · intro camel name members schema lines
    have hkeys : schema.fields.map (·.key) = members.keys := by
      simp [schema, Schema.ofMembers, Members.keys, Function.comp_def]
    refine ⟨Item.render_eq _ _, ?_, ?_⟩
    · have hnaming : Convention.swift = Swift.naming := rfl
      rw [Swift.codingKeysLine_mem_iff, ← hkeys, hnaming]
      simp only [List.mem_map, exists_exists_and_eq_and]
    · rw [← hkeys]
      exact Swift.flatAll_definition camel schema

/-- Told or not: a reserved word, a key in another case, and a key between backticks. -/
theorem properties_are_seen_as_keys_cases :
    (Convention.swift ∈ Convention.telling ∧
      Convention.swift.renames true "default" = false ∧
      Convention.swift.renames true "user_id" = true ∧
      "user_id".toList.head? ≠ some '`' ∧ "user_id".toList.getLast? ≠ some '`') ∧
    Convention.swift.seenName true "default" = "default" ∧
      Convention.swift.seenName true "user_id" ≠ "user_id" := by
  have hswift : Convention.swift ∈ Convention.telling := List.mem_cons_self
  have hdefault : Convention.swift.renames true "default" = false := by decide +kernel
  have huser : Convention.swift.renames true "user_id" = true := by decide +kernel
  have hhead : "user_id".toList.head? ≠ some '`' := by decide
  have hlast : "user_id".toList.getLast? ≠ some '`' := by decide
  exact ⟨⟨hswift, hdefault, huser, hhead, hlast⟩,
    (properties_are_seen_as_keys.1 _ hswift true "default").2.1 hdefault,
    (properties_are_seen_as_keys.1 _ hswift true "user_id").2.2 huser hhead hlast⟩

end SampleTypes.Target
