import SampleTypes.Json.Reader
import SampleTypes.Json.Writer
import SampleTypes.Proofs.Json.Quoted
import SampleTypes.Proofs.Json.Value

/-! Written values read back. What spells a value is followed by any text that cannot go on a
number, and blanks may stand before items and brackets, so that every layout with commas and
brackets in their places reads back to the same value. -/
namespace SampleTypes.Json

/-- Whether a character may stand between tokens. -/
def isGap (c : Char) : Bool := c = ' ' || c = '\t' || c = '\n' || c = '\r'

lemma isGap_iff (c : Char) : isGap c = true ↔ c = ' ' ∨ c = '\t' ∨ c = '\n' ∨ c = '\r' := by
  simp only [isGap, Bool.or_eq_true, decide_eq_true_eq, or_assoc]

lemma isGap_of_mem_nil : ∀ c ∈ ([] : List Char), isGap c = true :=
  List.forall_mem_nil _

lemma skipBlank_append {gap : List Char} (h : ∀ c ∈ gap, isGap c = true) (cs : List Char) :
    skipBlank (gap ++ cs) = skipBlank cs :=
  List.dropWhile_append_of_pos h

lemma skipBlank_cons {c : Char} (h : isGap c = false) (cs : List Char) :
    skipBlank (c :: cs) = c :: cs :=
  List.dropWhile_cons_of_neg (by simpa [isGap] using h)

/-- Text that a reader takes for `x`, exactly and whatever follows. It begins with no blank and no
closing bracket. -/
structure Spells {α : Type} (item : List Char → Option (α × List Char)) (cs : List Char) (x : α) :
    Prop where
  read : ∀ rest, Number.Stops rest → item (cs ++ rest) = some (x, rest)
  start : ∃ c tail, cs = c :: tail ∧ isGap c = false ∧ c ≠ ']' ∧ c ≠ '\x7d'

namespace Spells

variable {α : Type} {item : List Char → Option (α × List Char)} {cs : List Char} {x : α}

lemma skipBlank (h : Spells item cs x) {gap : List Char} (hgap : ∀ c ∈ gap, isGap c = true)
    (rest : List Char) : Json.skipBlank (gap ++ (cs ++ rest)) = cs ++ rest := by
  obtain ⟨c, tail, rfl, hc, -⟩ := h.start
  rw [skipBlank_append hgap, List.cons_append, skipBlank_cons hc]

end Spells

/-- A bracket that ends a list. -/
def IsClosing (c : Char) : Prop := c = ']' ∨ c = '\x7d'

lemma IsClosing.not_gap {c : Char} (h : IsClosing c) : isGap c = false := by
  rcases h with rfl | rfl <;> decide

lemma stops_gap_closing {gap : List Char} (hgap : ∀ c ∈ gap, isGap c = true) {close : Char}
    (hclose : IsClosing close) (rest : List Char) : Number.Stops (gap ++ close :: rest) := by
  cases gap with
  | nil =>
    rw [List.nil_append, Number.stops_cons]
    rcases hclose with rfl | rfl <;> decide
  | cons c gap =>
    have hc := (isGap_iff c).mp (hgap c (by simp))
    rw [List.cons_append, Number.stops_cons]
    rcases hc with rfl | rfl | rfl | rfl <;> decide

section Lists

variable {α : Type} {item : List Char → Option (α × List Char)} {write : α → List Char}
  {lead gap trail : List Char} {close : Char}

/-- Items with commas between them are read up to the closing bracket. -/
lemma readItems_spelled {xs : List α} (hxs : ∀ x ∈ xs, Spells item (write x) x) (hne : xs ≠ [])
    (hlead : ∀ c ∈ lead, isGap c = true) (hgap : ∀ c ∈ gap, isGap c = true)
    (htrail : ∀ c ∈ trail, isGap c = true) (hclose : IsClosing close) {fuel : Nat}
    (hfuel : xs.length ≤ fuel) (rest : List Char) :
    readItems item close fuel
        (lead ++ ((',' :: gap).intercalate (xs.map write) ++ (trail ++ close :: rest))) =
      some (xs, rest) := by
  induction xs generalizing lead fuel with
  | nil => exact absurd rfl hne
  | cons x xs ih =>
    obtain ⟨hx, hrest⟩ := List.forall_mem_cons.mp hxs
    obtain ⟨fuel, rfl⟩ : ∃ k, fuel = k + 1 :=
      ⟨fuel - 1, by simp only [List.length_cons] at hfuel; omega⟩
    cases xs with
    | nil =>
      have hstop := stops_gap_closing htrail hclose rest
      have hcomma : close ≠ ',' := by rcases hclose with rfl | rfl <;> decide
      rw [List.map_singleton, List.intercalate_singleton, readItems, hx.skipBlank hlead,
        hx.read _ hstop]
      simp only [skipBlank_append htrail, skipBlank_cons hclose.not_gap, if_neg hcomma, if_true]
    | cons y ys =>
      have hstop : Number.Stops (',' :: (gap ++
          ((',' :: gap).intercalate ((y :: ys).map write) ++ (trail ++ close :: rest)))) := by
        rw [Number.stops_cons]
        decide
      have hlength : (y :: ys).length ≤ fuel := by simpa using hfuel
      have hnext := ih hrest (by simp) hgap hlength
      rw [List.map_cons, List.map_cons, List.intercalate_cons_cons, ← List.map_cons,
        List.append_assoc, List.append_assoc, List.cons_append, readItems, hx.skipBlank hlead,
        hx.read _ hstop]
      simp only [skipBlank_cons (c := ',') (by decide), if_true, hnext, Option.map_some]

lemma length_le_intercalate {xs : List α} (hxs : ∀ x ∈ xs, write x ≠ []) (sep : List Char) :
    xs.length ≤ (sep.intercalate (xs.map write)).length := by
  induction xs with
  | nil => simp
  | cons x xs ih =>
    obtain ⟨hx, hrest⟩ := List.forall_mem_cons.mp hxs
    have hlength := List.length_pos_of_ne_nil hx
    cases xs with
    | nil => simpa using Nat.succ_le_of_lt hlength
    | cons y ys =>
      have hmore := ih hrest
      rw [List.map_cons, List.map_cons, List.intercalate_cons_cons, ← List.map_cons]
      simp only [List.length_append, List.length_cons] at hmore ⊢
      omega

/-- Joined items begin as the first of them does. -/
lemma exists_cons_intercalate {xs : List α}
    (hxs : ∀ x ∈ xs, ∃ c tail, write x = c :: tail ∧ isGap c = false ∧ c ≠ ']' ∧ c ≠ '\x7d')
    (hne : xs ≠ []) (sep : List Char) : ∃ c tail, sep.intercalate (xs.map write) = c :: tail ∧
      isGap c = false ∧ c ≠ ']' ∧ c ≠ '\x7d' := by
  obtain ⟨x, ys, rfl⟩ := List.exists_cons_of_ne_nil hne
  obtain ⟨c, tail, hx, hc⟩ := hxs x List.mem_cons_self
  cases ys with
  | nil => exact ⟨c, tail, by simp [hx], hc⟩
  | cons y ys =>
    refine ⟨c, tail ++ sep ++ sep.intercalate ((y :: ys).map write), ?_, hc⟩
    rw [List.map_cons, List.map_cons, List.intercalate_cons_cons, hx]
    rfl

/-- The whole of a list that is not empty is read, from after the opening bracket. -/
lemma readList_spelled {xs : List α} (hxs : ∀ x ∈ xs, Spells item (write x) x) (hne : xs ≠ [])
    (hlead : ∀ c ∈ lead, isGap c = true) (hgap : ∀ c ∈ gap, isGap c = true)
    (htrail : ∀ c ∈ trail, isGap c = true) (hclose : IsClosing close) (rest : List Char) :
    readList item close
        (lead ++ ((',' :: gap).intercalate (xs.map write) ++ (trail ++ close :: rest))) =
      some (xs, rest) := by
  have hwrite : ∀ x ∈ xs, write x ≠ [] := by
    intro x hx
    obtain ⟨c, tail, hc, -⟩ := (hxs x hx).start
    simp [hc]
  have hfuel := length_le_intercalate hwrite (',' :: gap)
  have hitems := fun (fuel : Nat) (h : xs.length ≤ fuel) =>
    readItems_spelled hxs hne isGap_of_mem_nil hgap htrail hclose h rest
  obtain ⟨c, tail, hc, hstart, hsquare, hcurly⟩ :=
    exists_cons_intercalate (fun x hx => (hxs x hx).start) hne (',' :: gap)
  have hopen : c ≠ close := by rcases hclose with rfl | rfl <;> assumption
  have hskip : skipBlank (lead ++ ((',' :: gap).intercalate (xs.map write) ++
      (trail ++ close :: rest))) = c :: (tail ++ (trail ++ close :: rest)) := by
    rw [skipBlank_append hlead, hc, List.cons_append, skipBlank_cons hstart]
  rw [readList, hskip]
  simp only [if_neg hopen]
  rw [← List.cons_append, ← hc]
  exact hitems _ (by simp only [List.length_append]; omega)

end Lists

/-- A scalar does not begin with an opening bracket, so no nesting is spent on it. -/
lemma readValue_cons {c : Char} (hsquare : c ≠ '[') (hcurly : c ≠ '\x7b') (d : Nat)
    (cs : List Char) : readValue d (c :: cs) = readScalar (c :: cs) := by
  cases d with
  | zero => rfl
  | succ d =>
    rw [readValue.eq_def]
    split <;> simp_all

theorem spells_null (d : Nat) : Spells (readValue d) "null".toList null where
  read rest _ := readValue_cons (by decide) (by decide) d _
  start := ⟨'n', "ull".toList, by decide⟩

theorem spells_bool (d : Nat) (b : Bool) :
    Spells (readValue d) (if b then "true" else "false").toList (bool b) where
  read rest _ := by cases b <;> exact readValue_cons (by decide) (by decide) d _
  start := by
    cases b with
    | true => exact ⟨'t', "rue".toList, by decide⟩
    | false => exact ⟨'f', "alse".toList, by decide⟩

theorem spells_string (d : Nat) (s : String) :
    Spells (readValue d) (quoted s).toList (string s) where
  read rest _ := by
    rw [toList_quoted, List.cons_append, readValue_cons (by decide) (by decide), readScalar,
      List.append_assoc, List.singleton_append, readQuoted_escaped]
    simp
  start := ⟨'"', _, toList_quoted s, by decide⟩

/-- A sign or digit sends the reader to a number. -/
lemma readScalar_number {c : Char} (hc : c = '-' ∨ c.isDigit = true) (cs : List Char) :
    readScalar (c :: cs) = (Number.read (c :: cs)).map fun (n, rest) => (.number n, rest) := by
  have hword : c ≠ 'n' ∧ c ≠ 't' ∧ c ≠ 'f' ∧ c ≠ '"' := by
    refine ⟨?_, ?_, ?_, ?_⟩ <;> (rintro rfl; revert hc; decide)
  rw [readScalar.eq_def]
  split <;> simp_all

lemma exists_number_text {n : Number} (h : n.IsWord) :
    ∃ c tail, n.text.toList = c :: tail ∧ (c = '-' ∨ c.isDigit = true) := by
  cases n with
  | float x => exact h.elim
  | int n =>
    rw [Number.text, Int.toString_eq_repr, Int.repr_eq_if]
    split_ifs with hn
    · obtain ⟨c, tail, hc⟩ :=
        List.exists_cons_of_ne_nil (Nat.toDigits_ne_nil (n := n.toNat) (b := 10))
      refine ⟨c, tail, by rw [Nat.toList_repr, hc], Or.inr ?_⟩
      exact Nat.isDigit_of_mem_toDigits (b := 10) (n := n.toNat) (by decide) (by decide)
        (by rw [hc]; simp)
    · exact ⟨'-', _, by rw [String.toList_append]; rfl, Or.inl rfl⟩

theorem spells_number (d : Nat) {n : Number} (h : n.IsWord) :
    Spells (readValue d) n.text.toList (number n) := by
  obtain ⟨c, tail, hc, hstart⟩ := exists_number_text h
  have hfirst : isGap c = false ∧ c ≠ '[' ∧ c ≠ ']' ∧ c ≠ '\x7b' ∧ c ≠ '\x7d' := by
    refine ⟨?_, ?_, ?_, ?_, ?_⟩
    · rcases hstart with rfl | hdigit
      · decide
      · by_contra hgap
        rcases (isGap_iff c).mp (by simpa using hgap) with rfl | rfl | rfl | rfl <;>
          exact absurd hdigit (by decide)
    all_goals (rintro rfl; revert hstart; decide)
  refine ⟨fun rest hr => ?_, c, tail, hc, hfirst.1, hfirst.2.2.1, hfirst.2.2.2.2⟩
  have hread := Number.read_text h hr
  rw [hc, List.cons_append] at hread ⊢
  rw [readValue_cons hfirst.2.1 hfirst.2.2.2.1, readScalar_number hstart, hread]
  rfl

/-- A key, a colon and a value, with blanks before the value or none. -/
theorem spells_member {d : Nat} {cs : List Char} {v : Json} (h : Spells (readValue d) cs v)
    (key : String) {gap : List Char} (hgap : ∀ c ∈ gap, isGap c = true) :
    Spells (readMember (readValue d)) ((quoted key).toList ++ ':' :: (gap ++ cs)) (key, v) where
  read rest hr := by
    rw [toList_quoted, List.cons_append, List.cons_append, readMember]
    simp only [List.append_assoc, List.nil_append, readQuoted_escaped, List.cons_append,
      skipBlank_cons (c := ':') (by decide), h.skipBlank hgap, h.read rest hr, Option.map_some,
      String.ofList_toList]
  start := ⟨'"', _, by rw [toList_quoted]; rfl, by decide⟩

/-- Brackets with nothing in them. -/
theorem spells_empty_array (d : Nat) : Spells (readValue (d + 1)) ['[', ']'] (array []) where
  read rest _ := by simp [readValue, readList, skipBlank_cons (c := ']') (by decide)]
  start := ⟨'[', _, rfl, by decide⟩

theorem spells_empty_object (d : Nat) :
    Spells (readValue (d + 1)) ['\x7b', '\x7d'] (object []) where
  read rest _ := by simp [readValue, readList, skipBlank_cons (c := '\x7d') (by decide)]
  start := ⟨'\x7b', _, rfl, by decide⟩

section Layout

variable {d : Nat} {lead gap trail : List Char}

/-- Items in brackets, with commas between them and blanks where a layout puts them. -/
theorem spells_array {write : Json → List Char} {items : List Json}
    (hitems : ∀ item ∈ items, Spells (readValue d) (write item) item) (hne : items ≠ [])
    (hlead : ∀ c ∈ lead, isGap c = true) (hgap : ∀ c ∈ gap, isGap c = true)
    (htrail : ∀ c ∈ trail, isGap c = true) :
    Spells (readValue (d + 1))
      ('[' :: (lead ++ ((',' :: gap).intercalate (items.map write) ++ (trail ++ [']']))))
      (array items) where
  read rest _ := by
    have h := readList_spelled hitems hne hlead hgap htrail (Or.inl rfl) rest
    simp only [List.cons_append, List.append_assoc, List.nil_append, readValue, h, Option.map_some]
  start := ⟨'[', _, rfl, by decide⟩

theorem spells_object {write : String × Json → List Char} {members : Members}
    (hmembers : ∀ m ∈ members, Spells (readMember (readValue d)) (write m) m) (hne : members ≠ [])
    (hlead : ∀ c ∈ lead, isGap c = true) (hgap : ∀ c ∈ gap, isGap c = true)
    (htrail : ∀ c ∈ trail, isGap c = true) :
    Spells (readValue (d + 1))
      ('\x7b' :: (lead ++ ((',' :: gap).intercalate (members.map write) ++ (trail ++ ['\x7d']))))
      (object members) where
  read rest _ := by
    have h := readList_spelled hmembers hne hlead hgap htrail (Or.inr rfl) rest
    simp only [List.cons_append, List.append_assoc, List.nil_append, readValue, h, Option.map_some]
  start := ⟨'\x7b', _, rfl, by decide⟩

end Layout

/-! The text without blanks is one of these layouts. -/

lemma itemTexts_eq_map (items : List Json) : itemTexts items = items.map text := by
  induction items with
  | nil => rfl
  | cons item items ih => simp [itemTexts, ih]

/-- A member as it stands in the text without blanks. -/
def memberText (m : String × Json) : String := quoted m.1 ++ ":" ++ m.2.text

lemma memberTexts_eq_map (members : Members) : memberTexts members = members.map memberText := by
  induction members with
  | nil => rfl
  | cons m members ih => obtain ⟨key, value⟩ := m; simp [memberTexts, memberText, ih]

lemma spells_memberText {d : Nat} {m : String × Json}
    (h : Spells (readValue d) m.2.text.toList m.2) :
    Spells (readMember (readValue d)) (memberText m).toList m := by
  have hmember := spells_member h m.1 isGap_of_mem_nil
  simpa [memberText, String.toList_append] using hmember

/-- The text of a value of whole numbers spells it, if the nesting that is left suffices. -/
theorem spells_text {v : Json} (hv : v.IsWhole) {d : Nat} (hd : v.depth ≤ d) :
    Spells (readValue d) v.text.toList v := by
  induction v generalizing d with
  | null => exact spells_null d
  | bool b => exact spells_bool d b
  | number n => exact spells_number d hv
  | string s => exact spells_string d s
  | array items ih =>
    obtain ⟨d, rfl, hdepth⟩ := exists_depth_of_array hd
    have hitems := ((all_array _ _).mp hv).2
    cases items with
    | nil => exact spells_empty_array d
    | cons item items =>
      have h := spells_array (fun i hi => ih i hi (hitems i hi) (hdepth i hi)) (by simp)
        isGap_of_mem_nil isGap_of_mem_nil isGap_of_mem_nil
      simpa [text, itemTexts_eq_map, String.toList_append, String.toList_intercalate,
        Function.comp_def] using h
  | object members ih =>
    obtain ⟨d, rfl, hdepth⟩ := exists_depth_of_object hd
    have hmembers := ((all_object _ _).mp hv).2
    cases members with
    | nil => exact spells_empty_object d
    | cons m members =>
      have hmember : ∀ m' ∈ m :: members,
          Spells (readMember (readValue d)) (memberText m').toList m' := fun m' hm =>
        spells_memberText (ih m' hm (hmembers m' hm) (hdepth m' hm))
      have h := spells_object hmember (by simp) isGap_of_mem_nil isGap_of_mem_nil isGap_of_mem_nil
      simpa [text, memberTexts_eq_map, String.toList_append, String.toList_intercalate,
        Function.comp_def] using h

/-- A whole text is read if it spells a value that is not nested too deep. -/
theorem read?_of_spells {text : String} {v : Json} (h : Spells (readValue maxDepth) text.toList v) :
    read? text = some v := by
  have hskip := h.skipBlank isGap_of_mem_nil []
  rw [List.nil_append, List.append_nil] at hskip
  have hread := h.read [] Number.stops_nil
  rw [List.append_nil] at hread
  have hend : skipBlank [] = [] := rfl
  simp [read?, hskip, hread, hend]

/-- A value of whole numbers is read back from its text, with every member that it spells. -/
theorem read?_text {v : Json} (hv : v.IsWhole) (hd : v.depth ≤ maxDepth) :
    read? v.text = some v :=
  read?_of_spells (spells_text hv hd)

end SampleTypes.Json
