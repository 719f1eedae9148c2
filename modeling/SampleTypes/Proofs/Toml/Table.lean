import Mathlib.Data.List.Basic
import SampleTypes.Proofs.Toml.Document

/-! What a document puts into its table: each entry one value, at a path of its own. -/
namespace SampleTypes.Toml

/-- The table that a path goes on in. -/
def Node.entries : Node → Table
  | .value _ => []
  | .table _ entries => entries
  | .rows _ current => current

/-- The value at a path. -/
def Table.value? : List String → Table → Option Value
  | [], _ => none
  | key :: path, table =>
    match table.lookup key with
    | none => none
    | some (.value value) => if path = [] then some value else none
    | some node => value? path node.entries

/-- Paths neither of which leads to the other. -/
def Apart (a b : List String) : Prop := ¬ a <+: b ∧ ¬ b <+: a

def AllApart (entries : List (List String × Value)) : Prop :=
  entries.Pairwise fun a b => Apart a.1 b.1

/-- A change that adds values at new paths and keeps all others. -/
structure Adds (added : List (List String × Value)) (table table' : Table) : Prop where
  value?_iff : ∀ path value,
    table'.value? path = some value ↔ (path, value) ∈ added ∨ table.value? path = some value
  /-- No value is put where there is one, below one or around one. -/
  apart : ∀ entry ∈ added, ∀ path value, table.value? path = some value → Apart path entry.1
  allApart : AllApart added

variable {key : String} {path : List String} {value : Value} {table table' : Table} {node : Node}
  {added : List (List String × Value)}

namespace Table

@[simp] lemma value?_nil (table : Table) : table.value? [] = none := rfl

lemma value?_eq (key : String) (path : List String) (table : Table) :
    table.value? (key :: path) =
      match table.lookup key with
      | none => none
      | some (.value value) => if path = [] then some value else none
      | some node => value? path node.entries := rfl

lemma value?_cons (h : ∀ value, node ≠ .value value) (hlookup : table.lookup key = some node) :
    table.value? (key :: path) = node.entries.value? path := by
  rw [value?_eq, hlookup]
  cases node with
  | value value => exact absurd rfl (h value)
  | table | rows => rfl

lemma value?_empty (path : List String) : value? path [] = none := by
  cases path with
  | nil => rfl
  | cons key path => rw [value?_eq, List.lookup_nil]

lemma value?_cons_of_lookup_eq (h : table.lookup key = table'.lookup key) :
    table.value? (key :: path) = table'.value? (key :: path) := by
  rw [value?_eq, h, value?_eq]

lemma lookup_cons {α : Type} (k key : String) (x : α) (entries : List (String × α)) :
    ((key, x) :: entries).lookup k = if k = key then some x else entries.lookup k := by
  rw [List.lookup_cons]
  split <;> simp_all

/-- What stands under other keys is not changed. -/
lemma lookup_alter {f : Option Node → Option Node} (h : alter key f table = some table') :
    ∃ node, f (table.lookup key) = some node ∧
      ∀ k, table'.lookup k = if k = key then some node else table.lookup k := by
  induction table generalizing table' with
  | nil =>
    obtain ⟨node, hnode, rfl⟩ := Option.map_eq_some_iff.mp h
    exact ⟨node, hnode, fun k => lookup_cons ..⟩
  | cons entry table ih =>
    obtain ⟨key', old⟩ := entry
    simp only [lookup_cons]
    rw [alter] at h
    split_ifs at h with hkey
    · subst hkey
      obtain ⟨node, hnode, rfl⟩ := Option.map_eq_some_iff.mp h
      refine ⟨node, by rw [if_pos rfl, hnode], fun k => ?_⟩
      rw [lookup_cons]
      split_ifs <;> rfl
    · obtain ⟨rest, hrest, rfl⟩ := Option.map_eq_some_iff.mp h
      obtain ⟨node, hnode, hlookup⟩ := ih hrest
      refine ⟨node, by rw [if_neg (Ne.symm hkey), hnode], fun k => ?_⟩
      rw [lookup_cons, hlookup]
      by_cases hk : k = key
      · simp [hk, Ne.symm hkey]
      · simp [hk]

end Table

lemma Apart.cons {a b : List String} (h : Apart a b) (key : String) : Apart (key :: a) (key :: b) :=
  ⟨fun hp => h.1 (List.cons_prefix_cons.mp hp).2, fun hp => h.2 (List.cons_prefix_cons.mp hp).2⟩

lemma apart_cons_of_ne {a b : List String} {k key : String} (h : k ≠ key) :
    Apart (k :: a) (key :: b) :=
  ⟨fun hp => h (List.cons_prefix_cons.mp hp).1, fun hp => h (List.cons_prefix_cons.mp hp).1.symm⟩

namespace Adds

open Table

lemma refl (table : Table) : Adds [] table table :=
  ⟨fun _ _ => by simp, by simp, .nil⟩

lemma trans {more : List (List String × Value)} {table'' : Table} (h : Adds added table table')
    (hmore : Adds more table' table'') : Adds (added ++ more) table table'' where
  value?_iff path value := by
    rw [hmore.value?_iff, h.value?_iff, List.mem_append]
    tauto
  apart entry hentry path value hvalue := by
    rcases List.mem_append.mp hentry with hentry | hentry
    · exact h.apart entry hentry path value hvalue
    · exact hmore.apart entry hentry path value ((h.value?_iff path value).mpr (.inr hvalue))
  allApart := List.pairwise_append.mpr ⟨h.allApart, hmore.allApart, fun a ha b hb =>
    hmore.apart b hb a.1 a.2 ((h.value?_iff a.1 a.2).mpr (.inl ha))⟩

/-- What is added below a key is added to the table around it. -/
lemma cons {below below' : Table} (h : Adds added below below')
    (hbefore : ∀ path, table.value? (key :: path) = below.value? path)
    (hafter : ∀ path, table'.value? (key :: path) = below'.value? path)
    (hother : ∀ k, k ≠ key → ∀ path, table'.value? (k :: path) = table.value? (k :: path)) :
    Adds (added.map fun entry => (key :: entry.1, entry.2)) table table' where
  value?_iff path value := by
    obtain - | ⟨k, path⟩ := path
    · simp
    · by_cases hk : k = key
      · subst hk
        rw [hafter, hbefore, h.value?_iff]
        simp
      · rw [hother k hk]
        simp [Ne.symm hk]
  apart entry hentry path value hvalue := by
    obtain ⟨inner, hinner, rfl⟩ := List.mem_map.mp hentry
    obtain - | ⟨k, path⟩ := path
    · simp at hvalue
    · by_cases hk : k = key
      · subst hk
        rw [hbefore] at hvalue
        exact (h.apart inner hinner path value hvalue).cons k
      · exact apart_cons_of_ne hk
  allApart := List.pairwise_map.mpr (h.allApart.imp fun hapart => hapart.cons key)

end Adds

/-- Nothing, or what a path can go on in. -/
def IsOpen (node? : Option Node) : Prop := ∀ value, node? ≠ some (.value value)

lemma IsOpen.value?_cons (h : IsOpen (table.lookup key)) (path : List String) :
    table.value? (key :: path) = Table.value? path ((table.lookup key).elim [] Node.entries) := by
  rw [Table.value?_eq]
  cases hlookup : table.lookup key with
  | none => exact (Table.value?_empty path).symm
  | some node =>
    cases node with
    | value value => exact absurd hlookup (h value)
    | table | rows => rfl

namespace Table

/-- A change of what stands under a key, as a change of the table. -/
lemma adds_alter (added : List (List String × Value)) {f : Option Node → Option Node}
    (h : alter key f table = some table')
    (hf : ∀ old node, f old = some node → IsOpen old ∧ IsOpen (some node) ∧
      Adds added (old.elim [] Node.entries) node.entries) :
    Adds (added.map fun entry => (key :: entry.1, entry.2)) table table' := by
  obtain ⟨node, hnode, hlookup⟩ := lookup_alter h
  obtain ⟨hold, hnew, hadds⟩ := hf _ node hnode
  have hkey : table'.lookup key = some node := by rw [hlookup, if_pos rfl]
  refine hadds.cons hold.value?_cons (fun path => ?_) fun k hk path => ?_
  · rw [IsOpen.value?_cons (hkey ▸ hnew), hkey, Option.elim_some]
  · exact value?_cons_of_lookup_eq (by rw [hlookup, if_neg hk])

lemma adds_within (added : List (List String × Value)) {f : Table → Option Table}
    (hf : ∀ table table', f table = some table' → Adds added table table')
    (h : within f path table = some table') :
    Adds (added.map fun entry => (path ++ entry.1, entry.2)) table table' := by
  induction path generalizing table table' with
  | nil => simpa using hf table table' h
  | cons key path ih =>
    rw [within] at h
    have hadds := adds_alter (added.map fun entry => (path ++ entry.1, entry.2)) h ?_
    · simpa [List.map_map, Function.comp_def] using hadds
    · intro old node hnode
      match old with
      | none =>
        obtain ⟨below, hbelow, rfl⟩ := Option.map_eq_some_iff.mp hnode
        exact ⟨by simp [IsOpen], by simp [IsOpen], ih hbelow⟩
      | some (.table origin entries) =>
        obtain ⟨below, hbelow, rfl⟩ := Option.map_eq_some_iff.mp hnode
        exact ⟨by simp [IsOpen], by simp [IsOpen], ih hbelow⟩
      | some (.rows closed current) =>
        obtain ⟨below, hbelow, rfl⟩ := Option.map_eq_some_iff.mp hnode
        exact ⟨by simp [IsOpen], by simp [IsOpen], ih hbelow⟩

lemma adds_openTable (h : openTable key table = some table') : Adds [] table table' := by
  refine adds_alter [] h fun old node hnode => ?_
  match old with
  | none =>
    obtain rfl := Option.some.inj hnode
    exact ⟨by simp [IsOpen], by simp [IsOpen], .refl []⟩
  | some (.table .implied entries) =>
    obtain rfl := Option.some.inj hnode
    exact ⟨by simp [IsOpen], by simp [IsOpen], .refl entries⟩

/-- A key that stands for nothing yet is given a value. -/
lemma adds_alter_value (h : assign value [key] table = some table') :
    Adds [([key], value)] table table' := by
  rw [assign] at h
  obtain ⟨node, hnode, hlookup⟩ := lookup_alter h
  split at hnode
  next hnone =>
    obtain rfl := Option.some.inj hnode
    have hkey : ∀ path, table.value? (key :: path) = none := fun path => by rw [value?_eq, hnone]
    have hkey' : ∀ path, table'.value? (key :: path) = if path = [] then some value else none :=
      fun path => by rw [value?_eq, hlookup, if_pos rfl]
    have hother : ∀ k, k ≠ key → ∀ path, table'.value? (k :: path) = table.value? (k :: path) :=
      fun k hk path => value?_cons_of_lookup_eq (by rw [hlookup, if_neg hk])
    refine ⟨fun path v => ?_, fun entry hentry path v hv => ?_, List.pairwise_singleton ..⟩
    · obtain - | ⟨k, path⟩ := path
      · simp
      · by_cases hk : k = key
        · subst hk
          rw [hkey, hkey']
          split_ifs with hpath
          · simp [hpath, eq_comm (a := v)]
          · simp [hpath]
        · simp [hother k hk, hk]
    · obtain rfl := List.mem_singleton.mp hentry
      obtain - | ⟨k, path⟩ := path
      · simp at hv
      · refine apart_cons_of_ne ?_
        rintro rfl
        simp [hkey] at hv
  · cases hnode

lemma adds_assign (h : assign value path table = some table') :
    Adds [(path, value)] table table' := by
  induction path generalizing table table' with
  | nil => cases h
  | cons key path ih =>
    obtain - | ⟨key', path⟩ := path
    · exact adds_alter_value h
    · rw [assign] at h
      · refine adds_alter [(key' :: path, value)] h fun old node hnode => ?_
        match old with
        | none =>
          obtain ⟨below, hbelow, rfl⟩ := Option.map_eq_some_iff.mp hnode
          exact ⟨by simp [IsOpen], by simp [IsOpen], ih hbelow⟩
        | some (.table .dottedKey entries) =>
          obtain ⟨below, hbelow, rfl⟩ := Option.map_eq_some_iff.mp hnode
          exact ⟨by simp [IsOpen], by simp [IsOpen], ih hbelow⟩
      · simp

end Table

/-! Documents. -/

/-- The header that what follows a line stands under. -/
def headerAfter (current : List String) (line : Line) : List String :=
  match statement? line.text with
  | some (.header path) => path
  | some (.rowHeader path) => path
  | _ => current

/-- The header that what follows some lines of a document stands under. -/
def headerOf (lines : List Line) : List String := lines.foldl headerAfter []

/-- The entry of a line, under a header: its path in the document, and its value. -/
def entryOf? (current : List String) (line : Line) : Option (List String × Value) :=
  match statement? line.text with
  | some (.assign path value) => some (current ++ path, value)
  | _ => none

def entriesOf (current : List String) : List Line → List (List String × Value)
  | [] => []
  | line :: lines => (entryOf? current line).toList ++ entriesOf (headerAfter current line) lines

lemma entriesOf_cons (current : List String) (line : Line) (lines : List Line) :
    entriesOf current (line :: lines) =
      (entryOf? current line).toList ++ entriesOf (headerAfter current line) lines := rfl

/-- A line with no entry or header leaves a document as it is, and one with an entry adds it. -/
lemma adds_step {line : Line} (hline : IsSimple line.text) {p p' : Progress}
    (h : (statement? line.text).elim (some p) p.step = some p') :
    Adds (entryOf? p.current line).toList p.root p'.root ∧
    p'.current = headerAfter p.current line := by
  rw [entryOf?, headerAfter]
  obtain hsaid | ⟨path, hsaid⟩ | ⟨path, value, hsaid⟩ := hline
  all_goals
    rw [statement?, hsaid] at h ⊢
    simp only [Option.bind_some, List.head?_cons, List.head?_nil, Option.elim] at h ⊢
  · obtain rfl := Option.some.inj h
    exact ⟨.refl _, rfl⟩
  · rw [Progress.step] at h
    split at h
    · cases h
    · obtain ⟨root, hroot, rfl⟩ := Option.map_eq_some_iff.mp h
      exact ⟨Table.adds_within [] (fun _ _ => Table.adds_openTable) hroot, rfl⟩
  · obtain ⟨root, hroot, rfl⟩ := Option.map_eq_some_iff.mp h
    exact ⟨Table.adds_within [(path, value)] (fun _ _ => Table.adds_assign) hroot, rfl⟩

/-- Lines of a document add their entries. -/
lemma adds_run {lines : List Line} (hlines : ∀ line ∈ lines, IsSimple line.text) {p p' : Progress}
    (h : (lines.filterMap fun line => statement? line.text).foldlM Progress.step p = some p') :
    Adds (entriesOf p.current lines) p.root p'.root := by
  induction lines generalizing p with
  | nil =>
    obtain rfl := Option.some.inj h
    exact .refl _
  | cons line lines ih =>
    obtain ⟨hline, hlines⟩ := List.forall_mem_cons.mp hlines
    obtain ⟨next, hnext, hrest⟩ : ∃ next, (statement? line.text).elim (some p) p.step = some next ∧
        (lines.filterMap fun line => statement? line.text).foldlM Progress.step next = some p' := by
      rw [List.filterMap_cons] at h
      cases hsaid : statement? line.text with
      | none =>
        rw [hsaid] at h
        exact ⟨p, rfl, h⟩
      | some statement =>
        rw [hsaid, List.foldlM_cons] at h
        exact Option.bind_eq_some_iff.mp h
    obtain ⟨hadds, hcurrent⟩ := adds_step hline hnext
    rw [entriesOf_cons, ← hcurrent]
    exact hadds.trans (ih hlines hrest)

lemma entriesOf_append (current : List String) (above below : List Line) :
    entriesOf current (above ++ below) =
      entriesOf current above ++ entriesOf (above.foldl headerAfter current) below := by
  induction above generalizing current with
  | nil => rfl
  | cons line above ih => rw [List.cons_append, entriesOf_cons, ih, ← List.append_assoc]; rfl

lemma statement?_of_entryOf? {current path : List String} {line : Line}
    (h : entryOf? current line = some (path, value)) :
    ∃ inner, path = current ++ inner ∧ statement? line.text = some (.assign inner value) := by
  rw [entryOf?] at h
  split at h
  next inner value' hsaid =>
    obtain ⟨rfl, rfl⟩ := Prod.mk.inj (Option.some.inj h)
    exact ⟨inner, rfl, hsaid⟩
  · cases h

/-- Entries of different lines are apart. -/
lemma apart_of_entries {above between below : List Line} {line line' : Line}
    {entry entry' : List String × Value}
    (hall : AllApart (entriesOf [] (above ++ line :: (between ++ line' :: below))))
    (hentry : entryOf? (headerOf above) line = some entry)
    (hentry' : entryOf? (headerOf (above ++ line :: between)) line' = some entry') :
    Apart entry.1 entry'.1 := by
  rw [headerOf, List.foldl_append, List.foldl_cons] at hentry'
  rw [headerOf] at hentry
  rw [entriesOf_append, entriesOf_cons, entriesOf_append, entriesOf_cons, hentry, hentry'] at hall
  refine (List.pairwise_append.mp (List.pairwise_append.mp hall).2.1).2.2 entry ?_ entry' ?_
  · simp
  · simp

/-- At most one line has an entry at a path that leads to another path. -/
lemma line_unique {above below above' below' : List Line} {line line' : Line}
    {entry entry' : List String × Value} {target : List String}
    (hall : AllApart (entriesOf [] (above ++ line :: below)))
    (heq : above ++ line :: below = above' ++ line' :: below')
    (hentry : entryOf? (headerOf above) line = some entry)
    (hentry' : entryOf? (headerOf above') line' = some entry')
    (htarget : entry.1 <+: target) (htarget' : entry'.1 <+: target) : above' = above := by
  have hapart : ¬ Apart entry.1 entry'.1 := fun h =>
    (List.prefix_or_prefix_of_prefix htarget htarget').elim h.1 h.2
  rcases List.append_eq_append_iff.mp heq with ⟨between, rfl, hbelow⟩ | ⟨between, rfl, hbelow⟩
  · obtain - | ⟨_, between⟩ := between
    · exact List.append_nil above
    · obtain ⟨rfl, rfl⟩ := List.cons.inj hbelow
      exact absurd (apart_of_entries hall hentry hentry') hapart
  · obtain - | ⟨_, between⟩ := between
    · exact (List.append_nil above').symm
    · obtain ⟨rfl, rfl⟩ := List.cons.inj hbelow
      rw [heq] at hall
      exact absurd (apart_of_entries hall hentry' hentry) fun h => hapart ⟨h.2, h.1⟩

lemma exists_line_of_mem_entriesOf {current : List String} {lines : List Line}
    {entry : List String × Value} (h : entry ∈ entriesOf current lines) :
    ∃ above line below, lines = above ++ line :: below ∧
      entryOf? (above.foldl headerAfter current) line = some entry := by
  induction lines generalizing current with
  | nil => cases h
  | cons line lines ih =>
    rcases List.mem_append.mp h with h | h
    · exact ⟨[], line, lines, rfl, Option.mem_toList.mp h⟩
    · obtain ⟨above, line', below, rfl, hentry⟩ := ih h
      exact ⟨line :: above, line', below, rfl, hentry⟩

/-- Each value in the table of a document is that of an entry, and entries are apart. -/
theorem adds_document {lines : List Line} (hlines : ∀ line ∈ lines, IsSimple line.text)
    {p : Progress}
    (h : (lines.filterMap fun line => statement? line.text).foldlM Progress.step {} = some p) :
    AllApart (entriesOf [] lines) ∧
      ∀ path value, p.root.value? path = some value → ∃ above line below,
        lines = above ++ line :: below ∧ entryOf? (headerOf above) line = some (path, value) := by
  have hadds := adds_run hlines h
  refine ⟨hadds.allApart, fun path value hvalue => ?_⟩
  rcases (hadds.value?_iff path value).mp hvalue with hentry | hnone
  · exact exists_line_of_mem_entriesOf hentry
  · exact absurd hnone (by simp [Table.value?_empty])

/-! Closed tables. -/

lemma lookup_closeEntries (table : Table) (key : String) :
    (closeEntries table).lookup key = (table.lookup key).map Node.close := by
  induction table with
  | nil => rfl
  | cons entry table ih =>
    obtain ⟨k, node⟩ := entry
    rw [closeEntries, Table.lookup_cons, Table.lookup_cons, ih]
    split_ifs <;> rfl

lemma exists_table_of_mem_closeRows {rows : List Table} (h : value ∈ closeRows rows) :
    ∃ entries, value = .table entries := by
  induction rows with
  | nil => cases h
  | cons entries rows ih =>
    rcases List.mem_cons.mp h with rfl | h
    · exact ⟨_, rfl⟩
    · exact ih h

end SampleTypes.Toml
