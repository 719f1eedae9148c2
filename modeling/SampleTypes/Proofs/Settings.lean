import SampleTypes.Proofs.Text.Span
import SampleTypes.Proofs.Toml.Table
import SampleTypes.Settings

/-! Faults of settings. Each comes from one entry of the text, and is shown at the first place of a
text that the entry may contain. -/
namespace SampleTypes.Settings

open String (utf8Len)

namespace Fault

/-- The section that a fault is in. -/
def group : Fault → String
  | zeroLimit => "history"
  | _ => "generate"

def key : Fault → String
  | unknownLanguage _ => "language"
  | blankRoot => "root"
  | zeroLimit => "max_entries"

/-- The keys of the section, in the order in which an array gives their values. -/
def keys : Fault → List String
  | zeroLimit => ["enabled", "path", "max_entries"]
  | _ => ["language", "root", "camel_case"]

/-- A value that is of no use. -/
def IsValue : Fault → Toml.Value → Prop
  | unknownLanguage name, value => value = .string name ∧ Language.parse? name = none
  | blankRoot, value => ∃ root, value = .string root ∧ Text.isBlankText root
  | zeroLimit, value => value = .integer (some 0)

/-- An entry gives the value of no use: alone, or with the whole section. -/
inductive IsIn (fault : Fault) : List String → Toml.Value → Prop
  | alone {value : Toml.Value} (h : fault.IsValue value) : fault.IsIn [fault.group, fault.key] value
  | inSection {value v : Toml.Value} {values : List (String × Toml.Value)}
      (hvalues : valuesOf? fault.keys value = some values) (hv : values.lookup fault.key = some v)
      (h : fault.IsValue v) : fault.IsIn [fault.group] value

end Fault

variable {fault : Fault} {value : Toml.Value} {document : List (String × Toml.Value)}

/-! Values. -/

lemma valueAt_eq_some {α : Type} {key : String} {f : Toml.Value → Option α} {default x : α}
    {values : List (String × Toml.Value)} (h : valueAt key f default values = some x) :
    (values.lookup key = none ∧ x = default) ∨ ∃ v, values.lookup key = some v ∧ f v = some x := by
  rw [valueAt] at h
  split at h
  next v hv => exact .inr ⟨v, hv, h⟩
  next hnone => exact .inl ⟨hnone, (Option.some.inj h).symm⟩

lemma string?_eq_some {s : String} (h : value.string? = some s) : value = .string s := by
  cases value with
  | string t => exact congrArg _ (Option.some.inj h)
  | _ => cases h

lemma count?_eq_zero (h : count? value = some 0) : value = .integer (some 0) := by
  unfold count? at h
  split at h
  · split_ifs at h with hn
    have hzero := Option.some.inj h
    congr
    omega
  · cases h

lemma lookup_of_valueAt_string {key s : String} {values : List (String × Toml.Value)}
    (h : valueAt key (fun v => v.string?.map some) none values = some (some s)) :
    values.lookup key = some (.string s) := by
  rcases valueAt_eq_some h with ⟨-, hnone⟩ | ⟨v, hv, hs⟩
  · cases hnone
  · obtain ⟨t, ht, heq⟩ := Option.map_eq_some_iff.mp hs
    rw [hv, string?_eq_some ht, Option.some.inj heq]

lemma lookup_of_generate? {settings : GenerateSettings} (h : generate? value = some settings) :
    ∃ values, valuesOf? ["language", "root", "camel_case"] value = some values ∧
      (∀ name, settings.language = some name → values.lookup "language" = some (.string name)) ∧
        ∀ root, settings.root = some root → values.lookup "root" = some (.string root) := by
  simp only [generate?, Option.bind_eq_bind, Option.bind_eq_some_iff, Option.pure_def] at h
  obtain ⟨values, hvalues, language, hlanguage, root, hroot, camelCase, -, heq⟩ := h
  obtain rfl := Option.some.inj heq
  refine ⟨values, hvalues, ?_, ?_⟩
  · rintro name rfl
    exact lookup_of_valueAt_string hlanguage
  · rintro name rfl
    exact lookup_of_valueAt_string hroot

lemma lookup_of_history? {settings : HistorySettings} (h : history? value = some settings) :
    ∃ values, valuesOf? ["enabled", "path", "max_entries"] value = some values ∧
      (settings.limit = 0 → values.lookup "max_entries" = some (.integer (some 0))) := by
  simp only [history?, Option.bind_eq_bind, Option.bind_eq_some_iff, Option.pure_def] at h
  obtain ⟨values, hvalues, enabled, -, path, -, limit, hlimit, heq⟩ := h
  obtain rfl := Option.some.inj heq
  refine ⟨values, hvalues, ?_⟩
  rintro rfl
  rcases valueAt_eq_some hlimit with ⟨-, h⟩ | ⟨v, hv, h⟩
  · cases h
  · rw [hv, count?_eq_zero h]

/-- What is at fault is a value in a section of the document. -/
lemma exists_value_of_fault {settings : Settings} (h : ofDocument? document = some settings)
    (hfault : settings.fault? = some fault) :
    ∃ v values w, document.lookup fault.group = some v ∧ valuesOf? fault.keys v = some values ∧
      values.lookup fault.key = some w ∧ fault.IsValue w := by
  simp only [ofDocument?, Option.bind_eq_bind, Option.bind_eq_some_iff, Option.pure_def] at h
  obtain ⟨values, hvalues, generate, hgenerate, history, hhistory, heq⟩ := h
  obtain rfl := Option.some.inj heq
  obtain rfl : document = values := by
    rw [valuesOf?] at hvalues
    split_ifs at hvalues
    exact Option.some.inj hvalues
  rw [fault?] at hfault
  split at hfault
  next name hname =>
    obtain rfl := Option.some.inj hfault
    obtain ⟨hname, hunknown⟩ := Option.filter_eq_some_iff.mp hname
    rcases valueAt_eq_some hgenerate with ⟨-, rfl⟩ | ⟨v, hv, hread⟩
    · cases hname
    · obtain ⟨values, hvalues, hlanguage, -⟩ := lookup_of_generate? hread
      exact ⟨v, values, _, hv, hvalues, hlanguage name hname, rfl,
        Option.isNone_iff_eq_none.mp hunknown⟩
  next =>
    split_ifs at hfault with hblank hzero
    · obtain rfl := Option.some.inj hfault
      obtain ⟨root, hroot, hblank⟩ := (Option.any_eq_true ..).mp hblank
      rcases valueAt_eq_some hgenerate with ⟨-, rfl⟩ | ⟨v, hv, hread⟩
      · cases hroot
      · obtain ⟨values, hvalues, -, hlookup⟩ := lookup_of_generate? hread
        exact ⟨v, values, _, hv, hvalues, hlookup root hroot, root, rfl, hblank⟩
    · obtain rfl := Option.some.inj hfault
      rcases valueAt_eq_some hhistory with ⟨-, rfl⟩ | ⟨v, hv, hread⟩
      · cases hzero
      · obtain ⟨values, hvalues, hlimit⟩ := lookup_of_history? hread
        exact ⟨v, values, _, hv, hvalues, hlimit hzero, rfl⟩

lemma Fault.IsValue.isFlat (h : fault.IsValue value) :
    (∀ entries, value ≠ .table entries) ∧ ∀ items, value ≠ .array items := by
  cases fault with
  | unknownLanguage name =>
    obtain ⟨rfl, -⟩ := h
    simp
  | blankRoot =>
    obtain ⟨root, rfl, -⟩ := h
    simp
  | zeroLimit =>
    obtain rfl : value = .integer (some 0) := h
    simp

lemma Fault.IsValue.node_eq {node : Toml.Node} (h : fault.IsValue node.close) :
    node = .value node.close := by
  cases node with
  | value value => rw [Toml.Node.close]
  | table origin entries =>
    exact absurd (by rw [Toml.Node.close]) (h.isFlat.1 (Toml.closeEntries entries))
  | rows closed current => exact absurd (by rw [Toml.Node.close]) (h.isFlat.2 _)

/-- An array of tables gives no other values than tables. -/
lemma not_isValue_of_rows {keys : List String} {closed : List Toml.Table} {current : Toml.Table}
    {values : List (String × Toml.Value)} {key : String}
    (hvalues : valuesOf? keys (Toml.Node.rows closed current).close = some values)
    (hlookup : values.lookup key = some value) : ¬ fault.IsValue value := by
  intro hfaulty
  rw [Toml.Node.close, valuesOf?] at hvalues
  obtain rfl := Option.some.inj hvalues
  obtain ⟨before, after, hzip, -⟩ := List.lookup_eq_some_iff.mp hlookup
  have hmem := (List.of_mem_zip (hzip ▸ List.mem_append_right before List.mem_cons_self)).2
  rcases List.mem_append.mp hmem with hclosed | hcurrent
  · obtain ⟨entries, rfl⟩ := Toml.exists_table_of_mem_closeRows hclosed
    exact hfaulty.isFlat.1 entries rfl
  · exact hfaulty.isFlat.1 _ (List.mem_singleton.mp hcurrent)

/-- What is at fault is given by one value in the table of the document. -/
lemma exists_value?_of_fault {root : Toml.Table} {settings : Settings}
    (h : ofDocument? (Toml.closeEntries root) = some settings)
    (hfault : settings.fault? = some fault) :
    ∃ path value, root.value? path = some value ∧ fault.IsIn path value := by
  obtain ⟨v, values, w, hv, hvalues, hw, hfaulty⟩ := exists_value_of_fault h hfault
  rw [Toml.lookup_closeEntries] at hv
  obtain ⟨node, hnode, rfl⟩ := Option.map_eq_some_iff.mp hv
  cases node with
  | value value =>
    refine ⟨[fault.group], value, ?_, .inSection hvalues hw hfaulty⟩
    rw [Toml.Table.value?_eq, hnode]
    rfl
  | table origin entries =>
    rw [Toml.Node.close, valuesOf?] at hvalues
    split_ifs at hvalues
    obtain rfl := Option.some.inj hvalues
    rw [Toml.lookup_closeEntries] at hw
    obtain ⟨inner, hinner, rfl⟩ := Option.map_eq_some_iff.mp hw
    refine ⟨[fault.group, fault.key], inner.close, ?_, .alone hfaulty⟩
    rw [Toml.Table.value?_cons (by simp) hnode, Toml.Node.entries, Toml.Table.value?_eq, hinner,
      hfaulty.node_eq]
    rfl
  | rows closed current => exact absurd hfaulty (not_isValue_of_rows hvalues hw)

/-! Places. -/

lemma Fault.IsIn.isPrefix {path : List String} (h : fault.IsIn path value) :
    path <+: [fault.group, fault.key] := by
  cases h with
  | alone => exact List.prefix_rfl
  | inSection => exact ⟨[fault.key], rfl⟩

lemma parse_eq_invalid {text path : String} {span : Option Text.Span}
    (h : parse text path = .error (.invalid fault span)) :
    ∃ document settings, Toml.parse? text = some document ∧ ofDocument? document = some settings ∧
      settings.fault? = some fault ∧ span = Text.Span.find? text fault.needle := by
  rw [parse] at h
  split at h
  · cases h
  next settings hsettings =>
    obtain ⟨document, hdocument, hsettings⟩ := Option.bind_eq_some_iff.mp hsettings
    split at h
    next fault' hfault =>
      obtain ⟨rfl, rfl⟩ := Error.invalid.inj (Except.error.inj h)
      exact ⟨document, settings, hdocument, hsettings, hfault, rfl⟩
    · cases h

/-- The entry that a fault comes from: it is on `line`, with `above` before it, and its value is
written as `token`. -/
structure Fault.IsAt (fault : Fault) (lines above : List Toml.Line) (line : Toml.Line)
    (lead token trail : List Char) : Prop where
  isLine : ∃ below, lines = above ++ line :: below
  isEntry : ∃ path value,
    Toml.entryOf? (Toml.headerOf above) line = some (Toml.headerOf above ++ path, value) ∧
      fault.IsIn (Toml.headerOf above ++ path) value ∧
      Toml.IsWritten path value lead token trail line.text
  /-- No other line has an entry for the key, or for all of the section. -/
  unique : ∀ above' line' below' entry, lines = above' ++ line' :: below' →
    Toml.entryOf? (Toml.headerOf above') line' = some entry → entry.1 <+: [fault.group, fault.key] →
    above' = above

/-- A fault in a document of lines comes from one entry. It is shown on the line of the entry, if
it is shown at all, exactly if the text that is looked for is on that line and nowhere sooner; and
it is shown at the value of the entry exactly if the value is that text, and that text stands
nowhere sooner. -/
theorem fault_is_shown_at_entry_iff {lines : List Toml.Line} {path : String} {fault : Fault}
    {span : Option Text.Span} (hlines : Toml.AreLines lines)
    (hsimple : ∀ line ∈ lines, Toml.IsSimple line.text)
    (h : parse (.ofList (Toml.textOf lines)) path = .error (.invalid fault span)) :
    ∃ above line lead token trail, fault.IsAt lines above line lead token trail ∧
      ((∀ s ∈ span, s.IsWithin (Toml.textOf above) line.text) ↔
        (fault.needle.toList <:+: Toml.textOf lines → fault.needle.toList <:+: line.text ∧
          Text.OccursFrom (Toml.textOf above).length fault.needle.toList (Toml.textOf lines))) ∧
      ((∀ s ∈ span, s = ⟨utf8Len (Toml.textOf above ++ lead), utf8Len token⟩) ↔
        (fault.needle.toList <:+: Toml.textOf lines → token = fault.needle.toList ∧
          Text.OccursFrom (Toml.textOf above ++ lead).length fault.needle.toList
            (Toml.textOf lines))) := by
  obtain ⟨document, settings, hdocument, hsettings, hfault, rfl⟩ := parse_eq_invalid h
  rw [Toml.parse?_textOf hlines hsimple] at hdocument
  obtain ⟨p, hp, rfl⟩ := Option.map_eq_some_iff.mp hdocument
  obtain ⟨hapart, hentries⟩ := Toml.adds_document hsimple hp
  obtain ⟨target, value, hvalue, hin⟩ := exists_value?_of_fault hsettings hfault
  obtain ⟨above, line, below, rfl, hentry⟩ := hentries target value hvalue
  obtain ⟨inner, rfl, hsaid⟩ := Toml.statement?_of_entryOf? hentry
  have hline : line ∈ above ++ line :: below := List.mem_append_right _ List.mem_cons_self
  have hstatement := (hsimple line hline).statementsOf?_eq
  rw [hsaid] at hstatement
  obtain ⟨lead, token, trail, hwritten⟩ :=
    Toml.exists_isWritten (hlines.isInLine line hline) hstatement
  have htoken : Toml.textOf (above ++ line :: below) =
      Toml.textOf above ++ lead ++ token ++ (trail ++ (line.ending ++ Toml.textOf below)) := by
    rw [Toml.textOf_append, hwritten.1]
    simp only [List.append_assoc]
  refine ⟨above, line, lead, token, trail,
    ⟨⟨below, rfl⟩, ⟨inner, value, hentry, hin, hwritten⟩, ?_⟩, ?_, ?_⟩
  · intro above' line' below' entry heq hentry' htarget'
    exact Toml.line_unique hapart heq hentry hentry' hin.isPrefix htarget'
  · rw [Toml.textOf_append]
    exact Text.forall_find?_iff fun before hbefore => Text.isWithin_iff hbefore
  · rw [htoken]
    exact Text.forall_find?_iff fun before hbefore => Text.span_eq_iff hbefore

/-- A language that nothing is generated for, under a header, is shown with its quotation marks. -/
theorem fault_is_shown_at_entry_cobol :
    let lines := Toml.linesOf ["[generate]", "language = \"Cobol\""]
    Toml.AreLines lines ∧ (∀ line ∈ lines, Toml.IsSimple line.text) ∧
      parse (.ofList (Toml.textOf lines)) "typesmith.toml" =
        .error (.invalid (.unknownLanguage "Cobol") (some ⟨22, 7⟩)) ∧
      ∃ above line lead token trail,
        (Fault.unknownLanguage "Cobol").IsAt lines above line lead token trail := by
  intro lines
  have hlines : Toml.AreLines lines := Toml.areLines_linesOf (by decide)
  have hsimple : ∀ line ∈ lines, Toml.IsSimple line.text := by
    refine List.forall_mem_cons.mpr ⟨.header ["generate"] rfl, List.forall_mem_singleton.mpr ?_⟩
    exact .entry ["language"] (.string "Cobol") rfl
  have hfault : parse (.ofList (Toml.textOf lines)) "typesmith.toml" =
      .error (.invalid (.unknownLanguage "Cobol") (some ⟨22, 7⟩)) := by decide +kernel
  obtain ⟨above, line, lead, token, trail, hat, -, -⟩ :=
    fault_is_shown_at_entry_iff hlines hsimple hfault
  exact ⟨hlines, hsimple, hfault, above, line, lead, token, trail, hat⟩

/-- A comment that has the text that is looked for is shown instead of the entry. -/
theorem fault_is_shown_in_comment :
    let above := Toml.linesOf ["# \"Cobol\" came first", "[generate]"]
    let line : Toml.Line := ⟨"language = \"Cobol\"".toList, ['\n']⟩
    Toml.AreLines (above ++ [line]) ∧ (∀ l ∈ above ++ [line], Toml.IsSimple l.text) ∧
      parse (.ofList (Toml.textOf (above ++ [line]))) "typesmith.toml" =
        .error (.invalid (.unknownLanguage "Cobol") (some ⟨2, 7⟩)) ∧
      Toml.entryOf? (Toml.headerOf above) line = some (["generate", "language"], .string "Cobol") ∧
      ¬ Text.Span.IsWithin ⟨2, 7⟩ (Toml.textOf above) line.text := by
  intro above line
  have hlines : above ++ [line] =
      Toml.linesOf ["# \"Cobol\" came first", "[generate]", "language = \"Cobol\""] := rfl
  rw [hlines]
  refine ⟨Toml.areLines_linesOf (by decide), ?_, by decide +kernel, rfl, ?_⟩
  · refine List.forall_mem_cons.mpr ⟨?_, List.forall_mem_cons.mpr ⟨?_, ?_⟩⟩
    · exact .empty rfl
    · exact .header ["generate"] rfl
    · exact List.forall_mem_singleton.mpr (.entry ["language"] (.string "Cobol") rfl)
  · rintro ⟨hbegin, -⟩
    exact absurd hbegin (by decide)

end SampleTypes.Settings
