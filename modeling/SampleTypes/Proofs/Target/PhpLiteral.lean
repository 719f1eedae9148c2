import SampleTypes.Proofs.Target.LiteralText
import SampleTypes.Proofs.Text.Backslash

/-! Literals in which arrays and objects have the same brackets. Keys tell them apart, so only where
there is no key and no item an object is taken for an array. -/
namespace SampleTypes

namespace Target

namespace Php

open Layout Json Text

/-! Strings in single quotes. -/

/-- Reads from after an opening quote to the closing one, without the backslashes before quotes and
backslashes: the text, and what follows. Any other backslash stands for itself. -/
def readSingleQuoted : List Char → Option (List Char × List Char)
  | [] => none
  | '\'' :: rest => some ([], rest)
  | '\\' :: '\\' :: rest => (readSingleQuoted rest).map fun (s, r) => ('\\' :: s, r)
  | '\\' :: '\'' :: rest => (readSingleQuoted rest).map fun (s, r) => ('\'' :: s, r)
  | c :: rest => (readSingleQuoted rest).map fun (s, r) => (c :: s, r)

/-- The text that one complete literal in single quotes denotes. -/
def denoted? (literal : String) : Option String :=
  match literal.toList with
  | '\'' :: cs =>
    match readSingleQuoted cs with
    | some (s, []) => some (.ofList s)
    | _ => none
  | _ => none

/-- Backslashes go before quotes. -/
lemma flatMap_escapeChar (s : List Char) :
    s.flatMap escapeChar = backslashed '\'' (backslashed '\\' s) :=
  flatMap_eq_foldl_backslashed ['\''] (by decide) (fun c => by simp [escapeChar]) s

/-- One written character is read as itself, with the rest of the literal after it. -/
lemma readSingleQuoted_escapeChar (c : Char) (cs : List Char) :
    readSingleQuoted (escapeChar c ++ cs) =
      (readSingleQuoted cs).map fun (s, r) => (c :: s, r) := by
  rw [escapeChar]
  split_ifs with h
  · rcases h with rfl | rfl <;> rfl
  · simp only [not_or] at h
    rw [List.singleton_append, readSingleQuoted.eq_def]
    split
    · contradiction
    · next heq => exact absurd (List.cons.inj heq).1 h.2
    · next heq => exact absurd (List.cons.inj heq).1 h.1
    · next heq => exact absurd (List.cons.inj heq).1 h.1
    · next heq =>
      obtain ⟨rfl, rfl⟩ := List.cons.inj heq
      rfl

/-- Reading from after the opening quote ends right behind the closing one. -/
lemma readSingleQuoted_escaped (s rest : List Char) :
    readSingleQuoted (s.flatMap escapeChar ++ '\'' :: rest) = some (s, rest) := by
  induction s with
  | nil => rfl
  | cons c s ih =>
    rw [List.flatMap_cons, List.append_assoc, readSingleQuoted_escapeChar, ih]
    rfl

lemma toList_singleQuoted (s : String) :
    (singleQuoted s).toList = '\'' :: (s.toList.flatMap escapeChar ++ ['\'']) := by
  simp [singleQuoted, String.toList_append]

/-- Taking the backslashes off again gives the text. -/
lemma denoted?_singleQuoted (s : String) : denoted? (singleQuoted s) = some s := by
  rw [denoted?, toList_singleQuoted]
  simp only [readSingleQuoted_escaped, String.ofList_toList]

lemma singleQuoted_append_injective {s t : String} {r r' : List Char}
    (h : (singleQuoted s).toList ++ r = (singleQuoted t).toList ++ r') : s = t ∧ r = r' := by
  have hread := congrArg (readSingleQuoted ·.tail) h
  simp only [toList_singleQuoted, List.cons_append, List.append_assoc, List.nil_append,
    List.tail_cons, readSingleQuoted_escaped, Option.some.injEq, Prod.mk.injEq] at hread
  exact ⟨String.toList_inj.mp hread.1, hread.2⟩

/-! Values. -/

mutual

/-- A value with an empty array in the place of every empty object. -/
def blurred : Json → Json
  | .array items => .array (blurredItems items)
  | .object [] => .array []
  | .object (m :: members) => .object (blurredMembers (m :: members))
  | scalar => scalar

def blurredItems : List Json → List Json
  | [] => []
  | item :: items => blurred item :: blurredItems items

def blurredMembers : Members → Members
  | [] => []
  | (key, value) :: members => (key, blurred value) :: blurredMembers members

end

lemma blurredItems_eq_map (items : List Json) : blurredItems items = items.map blurred := by
  induction items with
  | nil => rfl
  | cons item items ih => rw [blurredItems, ih, List.map_cons]

lemma blurredMembers_eq_map (members : Members) :
    blurredMembers members = members.map fun m => (m.1, blurred m.2) := by
  induction members with
  | nil => rfl
  | cons m members ih => rw [blurredMembers, ih, List.map_cons]

/-- A value in a list, with a key or without one. -/
abbrev Row := Option String × Json

/-- Arrays and objects. -/
def IsList (v : Json) : Prop := (∃ items, v = .array items) ∨ ∃ members, v = .object members

def rows : Json → List Row
  | .array items => items.map fun item => (none, item)
  | .object members => members.map fun m => (some m.1, m.2)
  | _ => []

/-- The list that rows are of, as far as they show it. -/
def ofRows : List Row → Json
  | [] => .array []
  | (none, v) :: rows => .array (v :: rows.map (·.2))
  | (some key, v) :: rows => .object ((key, v) :: rows.map fun row => (row.1.getD "", row.2))

def blurredRow (row : Row) : Row := (row.1, blurred row.2)

def writeRow (depth : Nat) : Row → String
  | (none, v) => write depth v
  | (some key, v) => singleQuoted key ++ " => " ++ write depth v

lemma blurred_eq_ofRows {v : Json} (h : IsList v) :
    blurred v = ofRows ((rows v).map blurredRow) := by
  obtain ⟨items, rfl⟩ | ⟨members, rfl⟩ := h
  · cases items with
    | nil => rfl
    | cons item items => simp [blurred, blurredItems, blurredItems_eq_map, rows, ofRows, blurredRow]
  · cases members with
    | nil => rfl
    | cons m members =>
      simp [blurred, blurredMembers, blurredMembers_eq_map, rows, ofRows, blurredRow]

lemma writeItems_eq_map (depth : Nat) (items : List Json) :
    writeItems depth items = items.map (write depth) := by
  induction items with
  | nil => rfl
  | cons item items ih => rw [writeItems, ih, List.map_cons]

lemma writeMembers_eq_map (depth : Nat) (members : Members) :
    writeMembers depth members = members.map fun m => writeRow depth (some m.1, m.2) := by
  induction members with
  | nil => rfl
  | cons m members ih => rw [writeMembers, ih, List.map_cons, writeRow]

/-- Both kinds of lists are written as their rows, between the same brackets. -/
lemma write_of_isList {v : Json} (h : IsList v) (depth : Nat) : write depth v =
    bracketed (.spaces 4) depth "[" "]" ((rows v).map (writeRow (depth + 1))) := by
  obtain ⟨items, rfl⟩ | ⟨members, rfl⟩ := h
  · rw [write, writeItems_eq_map, rows, List.map_map]
    rfl
  · rw [write, writeMembers_eq_map, rows, List.map_map]
    rfl

lemma isWhole_of_mem_rows {v : Json} (hv : v.IsWhole) : ∀ row ∈ rows v, row.2.IsWhole := by
  cases v with
  | array items => exact List.forall_mem_map.mpr ((all_array _ _).mp hv).2
  | object members => exact List.forall_mem_map.mpr ((all_object _ _).mp hv).2
  | _ => exact List.forall_mem_nil _

/-- The shape that a first character announces. -/
def shapeOf (c : Char) : Shape :=
  if c = '\'' then .string
  else if c = '[' then .array
  else if c = '-' ∨ c.isDigit = true then .number
  else if c = 'n' then .null
  else if c = 't' then .bool true
  else .bool false

/-- The shape that can be seen. -/
def blurredShape (v : Json) : Shape := if shape v = .object then .array else shape v

/-- What holds no other values is seen as what it is. -/
lemma shape_eq_of_blurredShape_eq {v w : Json} (hv : (shape v).isList = false)
    (h : blurredShape v = blurredShape w) : shape v = shape w := by
  have hobject : shape v ≠ .object := fun hobject => by
    rw [hobject] at hv
    contradiction
  rw [blurredShape, blurredShape, if_neg hobject] at h
  split_ifs at h
  · rw [h] at hv
    contradiction
  · exact h

lemma shapeOf_number {c : Char} (h : c = '-' ∨ c.isDigit = true) : shapeOf c = .number := by
  have hne : c ≠ '\'' ∧ c ≠ '[' := by
    refine ⟨?_, ?_⟩ <;> (rintro rfl; revert h; decide)
  rw [shapeOf, if_neg hne.1, if_neg hne.2, if_pos h]

lemma exists_cons_write {v : Json} (hv : v.IsWhole) (depth : Nat) :
    ∃ c tail, (write depth v).toList = c :: tail ∧ shapeOf c = blurredShape v := by
  cases v with
  | null => exact ⟨'n', "ull".toList, by rw [write]; rfl, rfl⟩
  | bool b =>
    cases b with
    | true => exact ⟨'t', "rue".toList, by rw [write]; rfl, rfl⟩
    | false => exact ⟨'f', "alse".toList, by rw [write]; rfl, rfl⟩
  | number n =>
    obtain ⟨c, tail, htext, hc⟩ := exists_number_text hv
    exact ⟨c, tail, htext, shapeOf_number hc⟩
  | string s => exact ⟨'\'', _, toList_singleQuoted s, rfl⟩
  | array items =>
    obtain ⟨tail, htail⟩ := exists_cons_bracketed (rfl : "[".toList = ['[']) _
    exact ⟨'[', tail, htail, rfl⟩
  | object members =>
    obtain ⟨tail, htail⟩ := exists_cons_bracketed (rfl : "[".toList = ['[']) _
    exact ⟨'[', tail, htail, rfl⟩

lemma blurredShape_eq {v w : Json} (hv : v.IsWhole) (hw : w.IsWhole) {depth : Nat}
    {r s : List Char} (h : (write depth v).toList ++ r = (write depth w).toList ++ s) :
    blurredShape v = blurredShape w := by
  obtain ⟨c, tail, hc, hshape⟩ := exists_cons_write hv depth
  obtain ⟨c', tail', hc', hshape'⟩ := exists_cons_write hw depth
  rw [hc, hc'] at h
  rw [← hshape, ← hshape', (List.cons.inj h).1]

/-- Behind a string without a key there stands no arrow. -/
lemma write_ne_key {v : Json} (hv : v.IsWhole) {depth : Nat} {key : String} {r s : List Char}
    (hr : Ends r) :
    (write depth v).toList ++ r ≠ (singleQuoted key).toList ++ (" => ".toList ++ s) := by
  intro h
  obtain ⟨c, tail, hc, hshape⟩ := exists_cons_write hv depth
  have hquote : c = '\'' := by
    rw [hc, toList_singleQuoted] at h
    exact (List.cons.inj h).1
  rw [hquote] at hshape
  cases v with
  | string t =>
    obtain ⟨-, rfl⟩ := singleQuoted_append_injective h
    exact absurd ((ends_cons _ _).mp hr) (by decide)
  | _ => cases hshape

lemma telling_row {depth : Nat} {row : Row} (hrow : row.2.IsWhole)
    (h : Telling IsWhole (fun v => (write depth v).toList) blurred row.2) :
    Telling (fun row : Row => row.2.IsWhole) (fun row => (writeRow depth row).toList) blurredRow
      row := by
  obtain ⟨key?, v⟩ := row
  rintro ⟨key'?, w⟩ hw r s hr hs heq
  cases key? with
  | none =>
    cases key'? with
    | none =>
      obtain ⟨hvalue, hrest⟩ := h w hw r s hr hs heq
      exact ⟨Prod.ext rfl hvalue, hrest⟩
    | some key' =>
      simp only [writeRow, String.toList_append, List.append_assoc] at heq
      exact absurd heq (write_ne_key hrow hr)
  | some key =>
    cases key'? with
    | none =>
      simp only [writeRow, String.toList_append, List.append_assoc] at heq
      exact absurd heq.symm (write_ne_key hw hs)
    | some key' =>
      simp only [writeRow, String.toList_append, List.append_assoc] at heq
      obtain ⟨rfl, hafter⟩ := singleQuoted_append_injective heq
      obtain ⟨hvalue, hrest⟩ := h w hw r s hr hs (List.append_cancel_left hafter)
      exact ⟨Prod.ext rfl hvalue, hrest⟩

/-- A list is told by its rows, up to whether it is an array or an object without any. -/
lemma telling_list {v : Json} (hlist : IsList v) {depth : Nat} (hv : v.IsWhole)
    (h : ∀ row ∈ rows v, Telling IsWhole (fun v => (write (depth + 1) v).toList) blurred row.2) :
    Telling IsWhole (fun v => (write depth v).toList) blurred v := by
  intro w hw r s hr hs heq
  have hshape := blurredShape_eq hv hw heq
  have hlist' : IsList w := by
    cases w with
    | array items => exact Or.inl ⟨items, rfl⟩
    | object members => exact Or.inr ⟨members, rfl⟩
    | _ => obtain ⟨items, rfl⟩ | ⟨members, rfl⟩ := hlist <;> cases hshape
  simp only [write_of_isList hlist, write_of_isList hlist'] at heq
  obtain ⟨hrows, hrest⟩ := bracketed_eq rfl (by decide)
    (fun row hrow => telling_row (isWhole_of_mem_rows hv row hrow) (h row hrow))
    (isWhole_of_mem_rows hw) heq
  exact ⟨by rw [blurred_eq_ofRows hlist, blurred_eq_ofRows hlist', hrows], hrest⟩

/-- What can be seen of a value is told by its literal, at any depth. -/
theorem telling_write {v : Json} (hv : v.IsWhole) (depth : Nat) :
    Telling IsWhole (fun v => (write depth v).toList) blurred v := by
  induction v generalizing depth with
  | array items ih =>
    refine telling_list (Or.inl ⟨items, rfl⟩) hv (List.forall_mem_map.mpr fun item hi => ?_)
    exact ih item hi (((all_array _ _).mp hv).2 item hi) (depth + 1)
  | object members ih =>
    refine telling_list (Or.inr ⟨members, rfl⟩) hv (List.forall_mem_map.mpr fun m hm => ?_)
    exact ih m hm (((all_object _ _).mp hv).2 m hm) (depth + 1)
  | _ =>
    refine telling_scalar hv rfl (fun w hw r s h => ?_) (fun _ => rfl)
      fun _ _ _ _ h => singleQuoted_append_injective h
    exact shape_eq_of_blurredShape_eq rfl (blurredShape_eq hv hw h)

/-- A literal shows no more than that. -/
lemma write_blurred (v : Json) (depth : Nat) : write depth (blurred v) = write depth v := by
  induction v generalizing depth with
  | array items ih =>
    have hitems : items.map (write (depth + 1) ∘ blurred) = items.map (write (depth + 1)) :=
      List.map_congr_left fun item hi => ih item hi (depth + 1)
    rw [blurred, write, write, writeItems_eq_map, writeItems_eq_map, blurredItems_eq_map,
      List.map_map, hitems]
  | object members ih =>
    cases members with
    | nil => rfl
    | cons m members =>
      have hmembers : ∀ m' ∈ m :: members, writeRow (depth + 1) (some m'.1, blurred m'.2) =
          writeRow (depth + 1) (some m'.1, m'.2) := by
        intro m' hm'
        rw [writeRow, writeRow, ih m' hm']
      rw [blurred, write, write, writeMembers_eq_map, writeMembers_eq_map, blurredMembers_eq_map,
        List.map_map]
      simp only [Function.comp_def]
      rw [List.map_congr_left hmembers]
  | _ => rfl

/-- Two values of whole numbers have the same literal just if they look the same. -/
theorem write_eq_iff {v w : Json} (hv : v.IsWhole) (hw : w.IsWhole) (depth : Nat) :
    write depth v = write depth w ↔ blurred v = blurred w := by
  constructor
  · intro h
    exact (telling_write hv depth w hw [] [] ends_nil ends_nil (congrArg (·.toList ++ []) h)).1
  · intro h
    rw [← write_blurred v, h, write_blurred]

end Php

end Target

open Target

/-- In a language of literals, code for an array or an object is what the language writes for it. -/
lemma Language.generate_of_literal {language : Language} {source : Json → String}
    (hlanguage : language.rendering = .literal source) {v : Json}
    (hv : (∃ items, v = .array items) ∨ ∃ members, v = .object members) (root : String)
    (camel : Bool) : language.generate v root camel = source v := by
  obtain ⟨items, rfl⟩ | ⟨members, rfl⟩ := hv <;> rw [generate, hlanguage] <;> rfl

/-- Literals do not mix up data. Two samples of whole numbers with the same literal in Python or
in Ruby are the same, members in their order; two with the same literal in PHP are the same but
for objects without members, which look like empty arrays. A PHP string has a backslash put before
every backslash and then before every quote, and denotes the text that it was written for. -/
theorem literals_are_unambiguous {v w : Json}
    (hv : (∃ items, v = .array items) ∨ ∃ members, v = .object members)
    (hw : (∃ items, w = .array items) ∨ ∃ members, w = .object members)
    (hvwhole : v.IsWhole) (hwwhole : w.IsWhole) (root root' : String) (camel camel' : Bool) :
    (Language.python.generate v root camel = Language.python.generate w root' camel' → v = w) ∧
    (Language.ruby.generate v root camel = Language.ruby.generate w root' camel' → v = w) ∧
    (Language.php.generate v root camel = Language.php.generate w root' camel' ↔
      Php.blurred v = Php.blurred w) ∧
    ∀ s : String,
      (Php.singleQuoted s).toList =
        '\'' :: (Text.backslashed '\'' (Text.backslashed '\\' s.toList) ++ ['\'']) ∧
      Php.denoted? (Php.singleQuoted s) = some s := by
  refine ⟨fun h => ?_, fun h => ?_, ?_, fun s => ⟨?_, Php.denoted?_singleQuoted s⟩⟩
  · rw [Language.generate_of_literal rfl hv, Language.generate_of_literal rfl hw] at h
    exact LiteralStyle.write_injective LiteralStyle.isClear_python hvwhole hwwhole h
  · rw [Language.generate_of_literal rfl hv, Language.generate_of_literal rfl hw] at h
    exact LiteralStyle.write_injective LiteralStyle.isClear_ruby hvwhole hwwhole h
  · rw [Language.generate_of_literal rfl hv, Language.generate_of_literal rfl hw,
      ← Php.write_eq_iff hvwhole hwwhole 0]
    refine ⟨fun h => ?_, fun h => by rw [Php.literal, h, Php.literal]⟩
    have hchars := congrArg String.toList h
    simp only [Php.literal, String.toList_append] at hchars
    exact String.toList_inj.mp (List.append_cancel_left (List.append_cancel_right hchars))
  · rw [Php.toList_singleQuoted, Php.flatMap_escapeChar]

/-- Quotes, arrows and line ends in strings, and an object without members where the other sample
has an empty array. -/
theorem literals_are_unambiguous_empty_object :
    let sample (part : Json) : Json :=
      .object [("a' => \n", part), ("b_1", .array [.string "'\\", .number (.int (-7)), .null])]
    let v := sample (.object [])
    let w := sample (.array [])
    (v.IsWhole ∧ w.IsWhole) ∧
    Language.python.generate v "Root" true ≠ Language.python.generate w "Root" true ∧
    Language.ruby.generate v "Root" true ≠ Language.ruby.generate w "Root" true ∧
    Language.php.generate v "Root" true = Language.php.generate w "Root" true := by
  intro sample v w
  have hv : v.IsWhole := by simp [v, sample, Json.IsWhole, Number.IsWord]
  have hw : w.IsWhole := by simp [w, sample, Json.IsWhole, Number.IsWord]
  have hne : v ≠ w := by simp [v, w, sample]
  obtain ⟨hpython, hruby, hphp, -⟩ := literals_are_unambiguous (Or.inr ⟨_, rfl⟩) (Or.inr ⟨_, rfl⟩)
    hv hw "Root" "Root" true true
  exact ⟨⟨hv, hw⟩, mt hpython hne, mt hruby hne, hphp.mpr rfl⟩

end SampleTypes
