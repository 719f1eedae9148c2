import SampleTypes.Proofs.Target.ClassParts
import SampleTypes.Proofs.Target.FlatText

/-! Objective-C code as a whole. However deep a class is nested, its interface and its
implementation come out as one block each, in the order of definitions. -/
namespace SampleTypes

open Layout Target Text

namespace Target

namespace ObjectiveC

lemma pasteAll_eq {p : Page} (hlevel : p.level = 0) (texts : List String) :
    pasteAll p texts = p.add (spread (texts.map Text.lines)) := by
  induction texts generalizing p with
  | nil => exact (Page.add_nil p).symm
  | cons text texts ih =>
    have hstep : p.blank.paste text = p.add ("" :: Text.lines text) := by
      rw [Page.paste_eq, Page.blank_eq, Page.indent_add, Page.level_add, hlevel,
        Indent.map_indented_zero, Page.add_add]
      rfl
    have hrest : pasteAll p (text :: texts) = pasteAll (p.blank.paste text) texts := rfl
    rw [hrest, hstep, ih ((Page.level_add _ _).trans hlevel), Page.add_add]
    rfl

lemma classTexts_eq_map (camel : Bool) (outlines : List Outline) :
    classTexts camel outlines = outlines.map (classText camel) := by
  induction outlines with
  | nil => rfl
  | cons outline outlines ih => rw [classTexts, ih, List.map_cons]

/-- The text of a page with items and finished texts below them. -/
lemma text_pasteAll (items : List Item) (texts : List String) :
    (pasteAll (page.putAll items) texts).text =
      "\n".intercalate (Item.flatAll (.spaces 4) 0 items ++ spread (texts.map Text.lines)) := by
  have hlevel : (page.putAll items).level = 0 := Page.level_putAll page items
  rw [pasteAll_eq hlevel, Page.putAll_eq, Page.add_add]
  exact Page.text_add _ _

/-- The definitions that the members of an object refer to. -/
def nestedObjects (d : String × Members) : List (String × Members) :=
  d.2.filterMap (Schema.nested? .qualified d.1)

def schemaOf (d : String × Members) : Schema := .ofMembers .qualified d.1 d.2

def outlineOf (d : String × Members) : Outline := .ofObject .qualified d.1 d.2

/-- The names of the outlines below an object are those that its fields refer to. -/
lemma references_schemaOf (d : String × Members) :
    (schemaOf d).references = (nestedObjects d).map Prod.fst := by
  rw [Schema.references, schemaOf, Schema.ofMembers, nestedObjects, List.map_filterMap,
    List.filterMap_map]
  exact List.filterMap_congr fun m _ => (Schema.map_fst_nested? .qualified d.1 m).symm

lemma nested_outlineOf (d : String × Members) :
    (outlineOf d).nested = (nestedObjects d).map outlineOf :=
  Outline.ofMembers_eq_map .qualified d.1 d.2

lemma classText_outlineOf (camel : Bool) (d : String × Members) :
    classText camel (outlineOf d) =
      { interface := "\n".intercalate (interfaceBlock camel (schemaOf d) ++
          spread ((nestedObjects d).map fun d' =>
            Text.lines (classText camel (outlineOf d')).interface))
        implementation := "\n".intercalate (implementationBlock camel (schemaOf d) ++
          spread ((nestedObjects d).map fun d' =>
            Text.lines (classText camel (outlineOf d')).implementation)) } := by
  have hnode : outlineOf d = .node (schemaOf d) (outlineOf d).nested := rfl
  have hnames : (outlineOf d).nested.map (·.schema.name) = (schemaOf d).references := by
    rw [nested_outlineOf, references_schemaOf, List.map_map]
    rfl
  rw [hnode, classText, hnames, classTexts_eq_map, text_pasteAll, text_pasteAll,
    flatAll_interfaceItems, flatAll_implementationItems, nested_outlineOf]
  simp only [List.map_map]
  rfl

/-- The classes of an object and of those below it, in the order of definitions. -/
def classes (d : String × Members) : List Schema :=
  (definedObjects .qualified d.1 d.2).map schemaOf

lemma classes_eq (d : String × Members) :
    classes d = schemaOf d :: (nestedObjects d).flatMap classes := by
  rw [classes, definedObjects_eq, List.map_cons, List.map_flatMap]
  rfl

/-- A part of the text of a class is its block and, below it, the same part of the
nested classes. -/
structure IsPart (camel : Bool) (part : ClassText → String)
    (block : Schema → List String) : Prop where
  isBlock : ∀ schema, schema.Plain → FlatPrinter.IsBlock (block schema)
  text_eq : ∀ d, part (classText camel (outlineOf d)) =
    "\n".intercalate (block (schemaOf d) ++
      spread ((nestedObjects d).map fun d' => Text.lines (part (classText camel (outlineOf d')))))

lemma isPart_interface (camel : Bool) : IsPart camel (·.interface) (interfaceBlock camel) :=
  ⟨fun _ => isBlock_interfaceBlock camel, fun d => by rw [classText_outlineOf]⟩

lemma isPart_implementation (camel : Bool) :
    IsPart camel (·.implementation) (implementationBlock camel) :=
  ⟨fun _ => isBlock_implementationBlock camel, fun d => by rw [classText_outlineOf]⟩

/-- The lines of a part are the blocks of all classes, and no cut into lines on the way changes
them. -/
lemma IsPart.spread_lines {camel : Bool} {part : ClassText → String}
    {block : Schema → List String} (h : IsPart camel part block) (d : String × Members)
    (hplain : ∀ s ∈ classes d, s.Plain) :
    "" :: Text.lines (part (classText camel (outlineOf d))) = spread ((classes d).map block) := by
  -- What is nested was cut into lines and joined again at every level above it; one level is
  -- enough here.
  induction d using nested_induct .qualified with
  | step d ih =>
    have hnested : ∀ d' ∈ nestedObjects d,
        "" :: Text.lines (part (classText camel (outlineOf d'))) =
          spread ((classes d').map block) := by
      intro d' hd'
      obtain ⟨m, hm, hreferred⟩ := List.mem_filterMap.mp hd'
      refine ih m hm d' hreferred fun s hs => hplain s ?_
      rw [classes_eq]
      exact List.mem_cons_of_mem _ (List.mem_flatMap.mpr ⟨d', hd', hs⟩)
    have hbelow : spread ((nestedObjects d).map fun d' =>
        Text.lines (part (classText camel (outlineOf d')))) =
          spread (((nestedObjects d).flatMap classes).map block) := by
      rw [spread, List.flatMap_map, List.map_flatMap, spread, List.flatMap_assoc]
      exact List.flatMap_congr hnested
    rw [classes_eq] at hplain ⊢
    obtain ⟨hroot, hrest⟩ := List.forall_mem_cons.mp hplain
    have hwhole := isBlock_spread (h.isBlock _ hroot)
      (List.forall_mem_map.mpr fun s hs => h.isBlock s (hrest s hs))
    rw [h.text_eq, hbelow, hwhole.lines_intercalate]
    rfl

lemma references_are_classes {d : String × Members} {schema : Schema} (h : schema ∈ classes d) :
    ∀ name ∈ schema.references, ∃ s ∈ classes d, s.name = name := by
  obtain ⟨d', hd', rfl⟩ := List.mem_map.mp h
  rw [references_schemaOf]
  refine List.forall_mem_map.mpr fun d'' hd'' => ⟨schemaOf d'', ?_, rfl⟩
  exact List.mem_map_of_mem (mem_definedObjects_of_nested hd' hd'')

/-! The whole text. -/

/-- The line with which the second part imports the first. -/
def ownImport (name : String) : String := "#import \"" ++ name ++ ".h\""

/-- The lines between the two parts. -/
def sourceHead (name : String) : List String :=
  [banner, "// " ++ name ++ ".m", banner, "", ownImport name]

lemma banner_eq : banner = "// " ++ "════════════════════════════════════" := by simp [banner]

/-- The lines of the first part, with the blank one before the banner. -/
def headerLines (camel : Bool) (schemas : List Schema) : List String :=
  imports ++ spread (schemas.map (interfaceBlock camel)) ++ [""]

/-- The lines of the second part, from the banner on. -/
def sourceLines (camel : Bool) (name : String) (schemas : List Schema) : List String :=
  sourceHead name ++ spread (schemas.map (implementationBlock camel))

lemma source_eq (camel : Bool) (d : String × Members) (hplain : ∀ s ∈ classes d, s.Plain) :
    source camel (outlineOf d) =
      "\n".intercalate (headerLines camel (classes d) ++ sourceLines camel d.1 (classes d)) := by
  have hinterface := (isPart_interface camel).spread_lines d hplain
  have himplementation := (isPart_implementation camel).spread_lines d hplain
  have hlevel : page.level = 0 := rfl
  have hmiddle : Item.flatAll page.indent 0 [.blank, .line banner, .line ("// " ++ d.1 ++ ".m"),
      .line banner, .blank, .line (ownImport d.1), .blank] = "" :: sourceHead d.1 ++ [""] := by
    simp only [Item.flatAll, Item.flat, Indent.indented_zero]
    rfl
  have hname : (outlineOf d).schema.name = d.1 := rfl
  rw [headerLines, sourceLines, ← hinterface, ← himplementation, source, hname]
  simp only [Page.putAll_eq, Page.paste_eq, Page.blank_eq, Page.indent_add, Page.level_add,
    Page.add_add, hlevel, Indent.map_indented_zero, Item.flatAll_lines]
  rw [← ownImport, hmiddle]
  refine (Page.text_add _ _).trans ?_
  simp only [List.append_assoc, List.cons_append, List.nil_append]

/-- The text is cut at the same places again. -/
lemma lines_source (camel : Bool) {d : String × Members} (hplain : ∀ s ∈ classes d, s.Plain) :
    Text.lines (source camel (outlineOf d)) =
      headerLines camel (classes d) ++ sourceLines camel d.1 (classes d) := by
  have hname : OneLine d.1 := (hplain (schemaOf d) List.mem_cons_self).name
  have himports : FlatPrinter.IsBlock imports :=
    ⟨by decide, ⟨_, _, rfl, by decide⟩, by decide⟩
  have hbanner : OneLine banner := by decide
  have hhead : FlatPrinter.IsBlock (sourceHead d.1) := by
    have himport : ownImport d.1 ≠ "" := by simp [ownImport]
    refine ⟨?_, ⟨_, _, rfl, by decide⟩, fun hlast => himport (Option.some.inj hlast)⟩
    simp only [sourceHead, ownImport, List.forall_mem_cons, oneLine_append]
    exact ⟨hbanner, ⟨⟨by decide, hname⟩, by decide⟩, hbanner, by decide,
      ⟨⟨by decide, hname⟩, by decide⟩, List.forall_mem_nil _⟩
  have hblocks : headerLines camel (classes d) ++ sourceLines camel d.1 (classes d) =
      imports ++ spread ((classes d).map (interfaceBlock camel) ++
        (sourceHead d.1 :: (classes d).map (implementationBlock camel))) := by
    have hspread : spread (sourceHead d.1 :: (classes d).map (implementationBlock camel)) =
        "" :: (sourceHead d.1 ++ spread ((classes d).map (implementationBlock camel))) := rfl
    rw [spread_append, hspread, headerLines, sourceLines]
    simp only [List.append_assoc, List.cons_append, List.nil_append]
  have hwhole : FlatPrinter.IsBlock
      (headerLines camel (classes d) ++ sourceLines camel d.1 (classes d)) := by
    rw [hblocks]
    refine isBlock_spread himports
      (List.forall_mem_append.mpr ⟨?_, List.forall_mem_cons.mpr ⟨hhead, ?_⟩⟩)
    · exact List.forall_mem_map.mpr fun s hs => isBlock_interfaceBlock camel (hplain s hs)
    · exact List.forall_mem_map.mpr fun s hs => isBlock_implementationBlock camel (hplain s hs)
  rw [source_eq camel d hplain]
  exact hwhole.lines_intercalate

section Heads

variable {head : String} (hblank : startsWith head "" = false)

include hblank

lemma filter_spread (block : Schema → List String) (schemas : List Schema) :
    (spread (schemas.map block)).filter (startsWith head) =
      schemas.flatMap fun s => (block s).filter (startsWith head) := by
  rw [spread, List.filter_flatMap, List.flatMap_map]
  refine List.flatMap_congr fun s _ => ?_
  rw [List.filter_cons, hblank]
  rfl

lemma filter_headerLines (h : ∀ a ∈ ["@class ", "@property (nonatomic, "], Apart head a)
    (hend : startsWith head "@end" = false) (camel : Bool) (schemas : List Schema) :
    (headerLines camel schemas).filter (startsWith head) = imports.filter (startsWith head) ++
      schemas.flatMap fun s => [interfaceLine s].filter (startsWith head) := by
  rw [headerLines, List.filter_append, List.filter_append, filter_spread hblank]
  simp only [filter_interfaceBlock hblank h hend, List.filter_singleton, hblank]
  exact List.append_nil _

lemma filter_sourceLines (h : ∀ a ∈ ["// ", "    ", "+ "], Apart head a)
    (hend : ∀ l ∈ ["\x7d", "@end"], startsWith head l = false) (camel : Bool) (name : String)
    (schemas : List Schema) :
    (sourceLines camel name schemas).filter (startsWith head) =
      [ownImport name].filter (startsWith head) ++
        schemas.flatMap fun s => [implementationLine s].filter (startsWith head) := by
  obtain ⟨hnote, hindent, hmethod, -⟩ := by simpa only [List.forall_mem_cons] using h
  obtain ⟨hclose, hlast, -⟩ := by simpa only [List.forall_mem_cons] using hend
  have hkey : startsWith head keyMethod = false := hmethod.startsWith_append
    "(NSDictionary *)modelCustomPropertyMapper \x7b"
  have hclass : startsWith head classMethod = false := hmethod.startsWith_append
    "(NSDictionary *)modelContainerPropertyGenericClass \x7b"
  have hbanner : startsWith head banner = false := by
    rw [banner_eq]
    exact hnote.startsWith_append _
  have hfile : startsWith head ("// " ++ name ++ ".m") = false := by
    rw [String.append_assoc]
    exact hnote.startsWith_append _
  have hhead : (sourceHead name).filter (startsWith head) =
      [ownImport name].filter (startsWith head) := by
    rw [sourceHead]
    simp only [List.filter_cons, hbanner, hfile, hblank, Bool.false_eq_true, if_false]
  rw [sourceLines, List.filter_append, filter_spread hblank, hhead]
  simp only [filter_implementationBlock hblank hindent hclose hlast, List.filter_singleton, hkey,
    hclass]
  simp

end Heads

/-- The first part has an interface for each class and nothing else that begins like one. -/
lemma filter_interfaces (camel : Bool) (schemas : List Schema) :
    (headerLines camel schemas).filter (startsWith "@interface ") = schemas.map interfaceLine := by
  have hline : ∀ s, startsWith "@interface " (interfaceLine s) = true := by
    intro s
    rw [interfaceLine, String.append_assoc]
    exact startsWith_append_self _ _
  have himports : imports.filter (startsWith "@interface ") = [] := by decide
  rw [filter_headerLines (by decide) (by decide) (by decide), himports]
  simp only [List.filter_singleton, hline]
  exact (List.map_eq_flatMap).symm

/-- The second part has an implementation for each class and nothing else that begins like one. -/
lemma filter_implementations (camel : Bool) (name : String) (schemas : List Schema) :
    (sourceLines camel name schemas).filter (startsWith "@implementation ") =
      schemas.map implementationLine := by
  have hline : ∀ s, startsWith "@implementation " (implementationLine s) = true :=
    fun s => startsWith_append_self _ _
  have himport : startsWith "@implementation " (ownImport name) = false := by
    rw [ownImport, String.append_assoc]
    exact Apart.startsWith_append (by decide) _
  rw [filter_sourceLines (by decide) (by decide) (by decide)]
  simp only [List.filter_singleton, hline, himport]
  exact (List.map_eq_flatMap).symm

/-- Each part has imports at its beginning only. -/
lemma filter_imports (camel : Bool) (name : String) (schemas : List Schema) :
    (headerLines camel schemas).filter (startsWith "#import ") = imports ∧
      (sourceLines camel name schemas).filter (startsWith "#import ") = [ownImport name] := by
  have hinterface : ∀ s, startsWith "#import " (interfaceLine s) = false :=
    startsWith_interfaceLine (by decide)
  have himplementation : ∀ s, startsWith "#import " (implementationLine s) = false :=
    startsWith_implementationLine (by decide)
  have hown : startsWith "#import " (ownImport name) = true :=
    startsWith_append_self "#import " ("\"" ++ name ++ ".h\"")
  have himports : imports.filter (startsWith "#import ") = imports := by decide
  rw [filter_headerLines (by decide) (by decide) (by decide), himports,
    filter_sourceLines (by decide) (by decide) (by decide)]
  simp only [List.filter_singleton, hinterface, himplementation, hown]
  simp

lemma nodup_imports (name : String) : (imports ++ [ownImport name]).Nodup := by
  have hown : startsWith "#import \"" (ownImport name) = true := by
    rw [ownImport, String.append_assoc]
    exact startsWith_append_self _ _
  have himports : ∀ l ∈ imports, startsWith "#import \"" l = false := by decide
  refine List.nodup_append.mpr ⟨by decide, List.nodup_singleton _, ?_⟩
  intro l hl own hmem heq
  rw [← List.mem_singleton.mp hmem, ← heq, himports l hl] at hown
  contradiction

/-- The second part begins with the first banner. -/
lemma parts_eq (camel : Bool) (name : String) (schemas : List Schema) :
    let lines := headerLines camel schemas ++ sourceLines camel name schemas
    lines.takeWhile (· != banner) = headerLines camel schemas ∧
      lines.dropWhile (· != banner) = sourceLines camel name schemas := by
  have hbanner : startsWith "// " banner = true := by
    rw [banner_eq]
    exact startsWith_append_self _ _
  have hinterface : ∀ s, startsWith "// " (interfaceLine s) = false :=
    startsWith_interfaceLine (by decide)
  have hnone : (headerLines camel schemas).filter (startsWith "// ") = [] := by
    rw [filter_headerLines (by decide) (by decide) (by decide)]
    have himports : imports.filter (startsWith "// ") = [] := by decide
    simp only [himports, List.filter_singleton, hinterface]
    simp
  have hheader : ∀ l ∈ headerLines camel schemas, (l != banner) = true := by
    intro l hl
    rw [bne_iff_ne]
    rintro rfl
    exact List.filter_eq_nil_iff.mp hnone banner hl hbanner
  have hsource : sourceLines camel name schemas = banner :: (sourceLines camel name schemas).tail :=
    rfl
  intro lines
  simp only [lines]
  rw [List.takeWhile_append_of_pos hheader, List.dropWhile_append_of_pos hheader, hsource]
  simp

/-- Objective-C code is two parts, and the second begins with a banner. The first has one
interface and the second one implementation for each class, depth first and in the order of
members. Above an interface stand the classes that its properties refer to, all of which have
interfaces of their own. An implementation has a method for the keys of renamed properties and one
for the classes of items if there are such properties, and what these map are names that the
interface declares. -/
theorem interface_and_implementation_agree {sample : Json} {object : Members}
    (hobject : sample.described? = some object) (hkeys : sample.HasPlainKeys) {root : String}
    (hroot : OneLine root) (camel : Bool) :
    let name := Name.type root
    let schemas := classes (name, object)
    let code := Language.objectiveC.generate sample root camel
    let header := (Text.lines code).takeWhile (· != banner)
    let source := (Text.lines code).dropWhile (· != banner)
    code = "\n".intercalate (header ++ source) ∧
    header = imports ++ spread (schemas.map (interfaceBlock camel)) ++ [""] ∧
    source = sourceHead name ++ spread (schemas.map (implementationBlock camel)) ∧
    header.filter (startsWith "@interface ") = schemas.map interfaceLine ∧
    source.filter (startsWith "@implementation ") = schemas.map implementationLine ∧
    header.filter (startsWith "#import ") = imports ∧
    source.filter (startsWith "#import ") = [ownImport name] ∧
    (imports ++ [ownImport name]).Nodup ∧
    ∀ s ∈ schemas,
      (∀ record ∈ s.references, ∃ t ∈ schemas, t.name = record) ∧
      (keyMethod ∈ implementationBlock camel s ↔
        ∃ field ∈ s.fields, naming.renames camel field.key = true) ∧
      (classMethod ∈ implementationBlock camel s ↔
        ∃ field ∈ s.fields, ∃ item, field.type = .list (.record item)) ∧
      (∀ entry ∈ keyMap camel s, ∃ field ∈ s.fields, field.key = entry.2 ∧
        declarator field.type ++ entry.1 ++ ";" ∈ interfaceBlock camel s) ∧
      ∀ entry ∈ classMap camel s, ∃ field ∈ s.fields,
        field.type = .list (.record entry.2) ∧
          declarator field.type ++ entry.1 ++ ";" ∈ interfaceBlock camel s := by
  intro name schemas code header source
  have hplain : ∀ s ∈ schemas, s.Plain :=
    List.forall_mem_map.mpr (plain_of_mem_definedObjects (Name.oneLine_type hroot)
      (hasPlainKeys_described hobject hkeys))
  have hcode : code = ObjectiveC.source camel (outlineOf (name, object)) := by
    simp only [code, Language.generate, Language.rendering, hobject]
    rfl
  obtain ⟨htake, hdrop⟩ := parts_eq camel name schemas
  rw [← lines_source camel hplain, ← hcode] at htake hdrop
  have hheader : header = headerLines camel schemas := htake
  have hsource : source = sourceLines camel name schemas := hdrop
  obtain ⟨himports, hown⟩ := filter_imports camel name schemas
  rw [hheader, hsource]
  refine ⟨?_, rfl, rfl, filter_interfaces camel schemas,
    filter_implementations camel name schemas, himports, hown, nodup_imports name, ?_⟩
  · rw [hcode]
    exact source_eq camel (name, object) hplain
  · intro s hs
    refine ⟨references_are_classes hs, keyMethod_mem_iff camel s,
      classMethod_mem_iff camel s, ?_, ?_⟩
    · intro entry hentry
      obtain ⟨field, hfield, rfl⟩ := List.mem_map.mp hentry
      have hfield := List.mem_of_mem_filter hfield
      exact ⟨field, hfield, rfl, propertyLine_mem hfield⟩
    · intro entry hentry
      obtain ⟨field, hfield, hentry⟩ := List.mem_filterMap.mp hentry
      obtain ⟨item, hitem, rfl⟩ := Option.map_eq_some_iff.mp hentry
      exact ⟨field, hfield, itemClass?_eq_some_iff.mp hitem, propertyLine_mem hfield⟩

/-- An order with a renamed property and a list of objects. -/
theorem interface_and_implementation_agree_order :
    let line : Members := [("count", .null)]
    let order : Members := [("user_id", .string "u"), ("lines", .array [.object line])]
    let code := Text.lines (Language.objectiveC.generate (.object order) "order" true)
    ((Json.object order).described? = some order ∧ (Json.object order).HasPlainKeys ∧
      OneLine "order") ∧
    (code.takeWhile (· != banner)).filter (startsWith "@interface ") =
      ["@interface Order : NSObject <YYModel>",
        "@interface OrderLinesItem : NSObject <YYModel>"] ∧
    (code.dropWhile (· != banner)).filter (startsWith "@implementation ") =
      ["@implementation Order", "@implementation OrderLinesItem"] ∧
    keyMap true (schemaOf ("Order", order)) = [("userId", "user_id")] ∧
    classMap true (schemaOf ("Order", order)) = [("lines", "OrderLinesItem")] := by
  intro line order code
  have hkeys : (Json.object order).HasPlainKeys := by
    have houter : ∀ key ∈ Members.keys order, OneLine key := by decide
    have hinner : ∀ key ∈ Members.keys line, OneLine key := by decide
    simpa [order, line, Json.HasPlainKeys] using And.intro houter hinner
  have hroot : OneLine "order" := by decide
  obtain ⟨-, -, -, hinterfaces, himplementations, -⟩ :=
    interface_and_implementation_agree rfl hkeys hroot true
  have hkeyMap : keyMap true (schemaOf ("Order", order)) = [("userId", "user_id")] := by
    decide +kernel
  have hclassMap : classMap true (schemaOf ("Order", order)) = [("lines", "OrderLinesItem")] := by
    decide +kernel
  refine ⟨⟨rfl, hkeys, hroot⟩, ?_, ?_, hkeyMap, hclassMap⟩
  · rw [hinterfaces]
    decide +kernel
  · rw [himplementations]
    decide +kernel

end ObjectiveC

end Target

end SampleTypes
