import SampleTypes.Generate
import SampleTypes.Proofs.Target.FlatPrinters

/-! Generated code of eight languages is what their flat printers make of the defined objects. -/
namespace SampleTypes

open Layout Target Text

namespace Language

/-- The printers of the languages that define types without declaring them first. -/
def flatPrinter? : Language → Option FlatPrinter
  | swift => some Swift.printer
  | java => some Java.printer
  | kotlin => some Kotlin.printer
  | typeScript => some TypeScript.printer
  | go => some Go.printer
  | rust => some Rust.printer
  | cSharp => some CSharp.printer
  | dart => some Dart.printer
  | _ => none

end Language

namespace Target

variable {camel : Bool} {outline : Outline}

lemma Swift.source_eq (h : ∀ b ∈ printer.blocks camel outline.schemas, FlatPrinter.IsBlock b) :
    source camel outline = printer.text camel outline.schemas := by
  rw [FlatPrinter.text_of_no_imports rfl]
  exact render_definitions (flatAll_eq_block camel) h

lemma Java.source_eq (h : ∀ b ∈ printer.blocks camel outline.schemas, FlatPrinter.IsBlock b) :
    source camel outline = printer.text camel outline.schemas := by
  rw [source, withImports_definitions _ (flatAll_eq_block camel) h, imports_eq]
  rfl

lemma Kotlin.source_eq (h : ∀ b ∈ printer.blocks camel outline.schemas, FlatPrinter.IsBlock b) :
    source camel outline = printer.text camel outline.schemas := by
  rw [source, withImports_definitions _ (flatAll_eq_block camel) h, imports_eq]
  rfl

lemma TypeScript.source_eq (h : ∀ b ∈ printer.blocks camel outline.schemas, FlatPrinter.IsBlock b) :
    source camel outline = printer.text camel outline.schemas := by
  rw [FlatPrinter.text_of_no_imports rfl]
  exact render_definitions (flatAll_eq_block camel) h

lemma Go.source_eq (h : ∀ b ∈ printer.blocks camel outline.schemas, FlatPrinter.IsBlock b) :
    source camel outline = printer.text camel outline.schemas := by
  rw [FlatPrinter.text_of_no_imports rfl]
  exact render_definitions (flatAll_eq_block camel) h

lemma Rust.source_eq (h : ∀ b ∈ printer.blocks camel outline.schemas, FlatPrinter.IsBlock b) :
    source outline = printer.text camel outline.schemas := by
  exact render_imports_definitions ["use serde::\x7bDeserialize, Serialize\x7d;"]
    (flatAll_eq_block camel) h

lemma CSharp.source_eq (h : ∀ b ∈ printer.blocks camel outline.schemas, FlatPrinter.IsBlock b) :
    source camel outline = printer.text camel outline.schemas := by
  rw [source, withImports_definitions _ (flatAll_eq_block camel) h, usings_eq]
  rfl

lemma Dart.source_eq (h : ∀ b ∈ printer.blocks camel outline.schemas, FlatPrinter.IsBlock b) :
    source camel outline = printer.text camel outline.schemas := by
  rw [FlatPrinter.text_of_no_imports rfl]
  exact render_definitions (flatAll_eq_block camel) h

end Target

/-- The languages that define a type for every object, nested ones after the one around them. -/
def flatLanguages : List Language :=
  [.swift, .java, .kotlin, .typeScript, .go, .rust, .cSharp, .dart]

/-- What makes a flat printer the printer of a language. -/
structure Prints (l : Language) (p : FlatPrinter) : Prop where
  scope : l.scope = .bare
  source : ∃ source, l.rendering = .definitions source ∧ ∀ camel outline,
    (∀ b ∈ p.blocks camel outline.schemas, FlatPrinter.IsBlock b) →
      source camel outline = p.text camel outline.schemas
  keepsLines : p.KeepsLines
  opening : l ≠ .java → ∀ isRoot schema, p.opening isRoot schema = p.opening false schema

lemma exists_prints {l : Language} (hl : l ∈ flatLanguages) :
    ∃ p, l.flatPrinter? = some p ∧ Prints l p := by
  simp only [flatLanguages, List.mem_cons, List.not_mem_nil, or_false] at hl
  rcases hl with rfl | rfl | rfl | rfl | rfl | rfl | rfl | rfl
  · exact ⟨_, rfl, rfl, ⟨_, rfl, fun _ _ => Swift.source_eq⟩, Swift.keepsLines_printer,
      fun _ _ _ => rfl⟩
  · exact ⟨_, rfl, rfl, ⟨_, rfl, fun _ _ => Java.source_eq⟩, Java.keepsLines_printer,
      fun hjava => absurd rfl hjava⟩
  · exact ⟨_, rfl, rfl, ⟨_, rfl, fun _ _ => Kotlin.source_eq⟩, Kotlin.keepsLines_printer,
      fun _ _ _ => rfl⟩
  · exact ⟨_, rfl, rfl, ⟨_, rfl, fun _ _ => TypeScript.source_eq⟩, TypeScript.keepsLines_printer,
      fun _ _ _ => rfl⟩
  · exact ⟨_, rfl, rfl, ⟨_, rfl, fun _ _ => Go.source_eq⟩, Go.keepsLines_printer,
      fun _ _ _ => rfl⟩
  · exact ⟨_, rfl, rfl, ⟨_, rfl, fun _ _ => Rust.source_eq⟩, Rust.keepsLines_printer,
      fun _ _ _ => rfl⟩
  · exact ⟨_, rfl, rfl, ⟨_, rfl, fun _ _ => CSharp.source_eq⟩, CSharp.keepsLines_printer,
      fun _ _ _ => rfl⟩
  · exact ⟨_, rfl, rfl, ⟨_, rfl, fun _ _ => Dart.source_eq⟩, Dart.keepsLines_printer,
      fun _ _ _ => rfl⟩

lemma hasPlainKeys_described {sample : Json} {object : Members}
    (hobject : sample.described? = some object) (hkeys : sample.HasPlainKeys) :
    (Json.object object).HasPlainKeys := by
  cases sample with
  | object members =>
    rw [← Option.some.inj hobject]
    exact hkeys
  | array items =>
    cases items with
    | nil => contradiction
    | cons item items =>
      have hitem := ((Json.all_array _ _).mp hkeys).2 item List.mem_cons_self
      cases item with
      | object members =>
        rw [← Option.some.inj hobject]
        exact hitem
      | _ => contradiction
  | _ => contradiction

/-- The text of blocks does not end with a line break. -/
lemma getLast?_text {p : FlatPrinter} {camel : Bool} {schemas : List Schema} (hne : schemas ≠ [])
    (h : ∀ b ∈ p.blocks camel schemas, FlatPrinter.IsBlock b) :
    (p.text camel schemas).toList.getLast? ≠ some '\n' := by
  obtain ⟨root, nested, rfl⟩ := List.exists_cons_of_ne_nil hne
  obtain ⟨hroot, hnested⟩ := List.forall_mem_cons.mp h
  obtain ⟨c, hc, hbreak⟩ := getLast?_intercalate (isBlock_spread hroot hnested)
  rw [intercalate_spread hroot.ne_nil fun b hb => (hnested b hb).ne_nil] at hc
  intro hlast
  rw [FlatPrinter.text, String.toList_append, List.getLast?_append, FlatPrinter.blocks, hc] at hlast
  exact hbreak (Option.some.inj hlast)

/-- Code in a language of types is the import lines and a block for every defined object, the root
first and the others depth first in the order of their members, with one blank line between two
and no line break at the end. A block is that of the object's own name and fields. Its
declarations are as many as the object's keys and in their order: the one in a place is that of
the field for the key in this place, with its notes above it. Only in Java it matters which object
is the root. -/
theorem generate_eq_flat_text {l : Language} (hl : l ∈ flatLanguages) {sample : Json}
    {object : Members} (hobject : sample.described? = some object) (hkeys : sample.HasPlainKeys)
    {root : String} (hroot : OneLine root) (camel : Bool) :
    let objects := definedObjects .bare (Name.type root) object
    let schemas := objects.map fun d => Schema.ofMembers .bare d.1 d.2
    ∃ p, l.flatPrinter? = some p ∧ l.generate sample root camel = p.text camel schemas ∧
      (∀ b ∈ p.blocks camel schemas, FlatPrinter.IsBlock b) ∧
      (l.generate sample root camel).toList.getLast? ≠ some '\n' ∧
      (∀ d ∈ objects, let fields := (Schema.ofMembers .bare d.1 d.2).fields
        fields.map (·.key) = d.2.keys ∧ (p.declarations camel fields).length = d.2.length ∧
        ∀ k key value, d.2[k]? = some (key, value) →
          let field : Field := ⟨key, .ofMember .bare d.1 key value⟩
          fields[k]? = some field ∧ (p.declarations camel fields)[k]? =
            some (p.notes camel field ++ [p.declaration camel (k + 1 == fields.length) field])) ∧
      (l ≠ .java → ∀ isRoot schema, p.block camel isRoot schema = p.block camel false schema) := by
  intro objects schemas
  obtain ⟨p, hp, hprints⟩ := exists_prints hl
  obtain ⟨source, hrendering, hsource⟩ := hprints.source
  have hplain : ∀ schema ∈ schemas, schema.Plain := by
    intro schema hschema
    obtain ⟨d, hd, rfl⟩ := List.mem_map.mp hschema
    exact plain_of_mem_definedObjects (Name.oneLine_type hroot)
      (hasPlainKeys_described hobject hkeys) d hd
  have hblocks := hprints.keepsLines.isBlock_blocks camel hplain
  have hschemas : (Outline.ofObject .bare (Name.type root) object).schemas = schemas :=
    Outline.schemas_ofObject .bare (Name.type root) object
  have hgenerate : l.generate sample root camel = p.text camel schemas := by
    rw [Language.generate, hrendering]
    simp only [hobject, hprints.scope]
    rw [hsource camel _ (by rwa [hschemas]), hschemas]
  refine ⟨p, hp, hgenerate, hblocks, ?_, ?_, ?_⟩
  · rw [hgenerate]
    exact getLast?_text (by simp [schemas, objects, definedObjects]) hblocks
  · intro d _ fields
    have hfields : fields = d.2.map fun m => ⟨m.1, FieldType.ofMember .bare d.1 m.1 m.2⟩ := rfl
    refine ⟨?_, ?_, fun k key value hmember => ?_⟩
    · rw [hfields, List.map_map]
      rfl
    · rw [FlatPrinter.length_declarations, hfields, List.length_map]
    · have hfield : fields[k]? = some ⟨key, FieldType.ofMember .bare d.1 key value⟩ := by
        rw [hfields, List.getElem?_map, hmember, Option.map_some]
      refine ⟨hfield, ?_⟩
      rw [FlatPrinter.getElem?_declarations, hfield, Option.map_some]
  · intro hjava isRoot schema
    rw [FlatPrinter.block, FlatPrinter.block, hprints.opening hjava]

/-- Two classes, for an order and for what its list of lines holds. -/
theorem generate_eq_flat_text_two_classes :
    let line : Members := [("count", .null)]
    let order : Members := [("user_id", .string "u"), ("lines", .array [.object line])]
    (Language.java ∈ flatLanguages ∧ (Json.object order).described? = some order ∧
      (Json.object order).HasPlainKeys ∧ OneLine "order") ∧
    ∃ p, Language.java.flatPrinter? = some p ∧
      Language.java.generate (.object order) "order" true =
        p.text true [.ofMembers .bare "Order" order, .ofMembers .bare "LinesItem" line] := by
  intro line order
  have hjava : Language.java ∈ flatLanguages := by decide
  have hkeys : (Json.object order).HasPlainKeys := by
    have houter : ∀ key ∈ Members.keys order, OneLine key := by decide
    have hinner : ∀ key ∈ Members.keys line, OneLine key := by decide
    simpa [order, line, Json.HasPlainKeys] using And.intro houter hinner
  have hroot : OneLine "order" := by decide
  obtain ⟨p, hp, hgenerate, -⟩ := generate_eq_flat_text hjava rfl hkeys hroot true
  refine ⟨⟨hjava, rfl, hkeys, hroot⟩, p, hp, ?_⟩
  have hobjects : definedObjects .bare (Name.type "order") order =
      [("Order", order), ("LinesItem", line)] := by rfl
  rw [hgenerate, hobjects]
  rfl

end SampleTypes
