import SampleTypes.Proofs.Json.Reader

/-! What the reader accepts: values nested no deeper than it may go, whose whole numbers have 64
bits. A text with more nesting than that is not read at all. -/
namespace SampleTypes

namespace Number

/-- A whole number that fits 64 bits, or a number that is not written as a whole one. -/
def HasWord : Number → Prop
  | .int n => IsWord (.int n)
  | .float _ => True

lemma hasWord_of_ofDigits? {negative : Bool} {digits : List Char} {n : Number}
    (h : ofDigits? negative digits = some n) : n.HasWord := by
  simp only [ofDigits?] at h
  split_ifs at h with hplain hsigned
  · rw [← Option.some.inj h, HasWord, IsWord]
    have hfits := hplain.2
    unfold FitsUnsigned at hfits
    omega
  · rw [← Option.some.inj h, HasWord, IsWord]
    obtain ⟨-, hpos, hlow, -⟩ := hsigned
    omega
  · obtain ⟨x, -, rfl⟩ := Option.map_eq_some_iff.mp h
    trivial

lemma hasWord_of_read {cs rest : List Char} {n : Number} (h : read cs = some (n, rest)) :
    n.HasWord := by
  simp only [read, Option.bind_eq_bind, Option.bind_eq_some_iff] at h
  obtain ⟨whole, -, h⟩ := h
  split_ifs at h
  · contradiction
  · obtain ⟨fraction, -, h⟩ := Option.bind_eq_some_iff.mp h
    obtain ⟨exponent, -, h⟩ := Option.bind_eq_some_iff.mp h
    split at h
    · obtain ⟨m, hm, hn⟩ := Option.bind_eq_some_iff.mp h
      rw [← (Prod.mk.inj (Option.some.inj hn)).1]
      exact hasWord_of_ofDigits? hm
    · obtain ⟨x, -, hn⟩ := Option.bind_eq_some_iff.mp h
      rw [← (Prod.mk.inj (Option.some.inj hn)).1]
      trivial

end Number

namespace Json

/-- What holds of everything that a reader returns. -/
def Yields {α : Type} (item : List Char → Option (α × List Char)) (p : α → Prop) : Prop :=
  ∀ cs x rest, item cs = some (x, rest) → p x

section Lists

variable {α : Type} {item : List Char → Option (α × List Char)} {p : α → Prop}

lemma Yields.readItems (h : Yields item p) (close : Char) (fuel : Nat) :
    Yields (readItems item close fuel) fun xs => ∀ x ∈ xs, p x := by
  induction fuel with
  | zero => intro cs xs rest hread; contradiction
  | succ fuel ih =>
    intro cs xs rest hread
    rw [Json.readItems] at hread
    split at hread
    · contradiction
    · next x afterItem hitem =>
      have hx := h _ _ _ hitem
      split at hread
      · contradiction
      · next c afterSign _ =>
        split_ifs at hread
        · obtain ⟨⟨others, left⟩, hothers, heq⟩ := Option.map_eq_some_iff.mp hread
          rw [← (Prod.mk.inj heq).1]
          exact List.forall_mem_cons.mpr ⟨hx, ih _ _ _ hothers⟩
        · rw [← (Prod.mk.inj (Option.some.inj hread)).1]
          exact List.forall_mem_singleton.mpr hx

lemma Yields.readList (h : Yields item p) (close : Char) :
    Yields (readList item close) fun xs => ∀ x ∈ xs, p x := by
  intro cs xs rest hread
  rw [Json.readList] at hread
  split at hread
  · contradiction
  · split_ifs at hread
    · rw [← (Prod.mk.inj (Option.some.inj hread)).1]
      exact List.forall_mem_nil _
    · exact h.readItems close _ _ _ _ hread

end Lists

lemma Yields.readMember {value : List Char → Option (Json × List Char)} {p : Json → Prop}
    (h : Yields value p) : Yields (readMember value) fun m => p m.2 := by
  intro cs m rest hread
  rw [Json.readMember.eq_def] at hread
  split at hread
  · split at hread
    · contradiction
    · split at hread
      · obtain ⟨⟨v, left⟩, hv, heq⟩ := Option.map_eq_some_iff.mp hread
        rw [← (Prod.mk.inj heq).1]
        exact h _ _ _ hv
      · contradiction
  · contradiction

/-- Whether all whole numbers in a value have 64 bits. -/
def HasWords (v : Json) : Prop :=
  v.All fun
    | .number n => n.HasWord
    | _ => True

lemma yields_readScalar : Yields readScalar fun v => v.HasWords ∧ v.depth = 0 := by
  intro cs v rest hread
  rw [readScalar.eq_def] at hread
  split at hread
  · rw [← (Prod.mk.inj (Option.some.inj hread)).1]
    exact ⟨trivial, rfl⟩
  · rw [← (Prod.mk.inj (Option.some.inj hread)).1]
    exact ⟨trivial, rfl⟩
  · rw [← (Prod.mk.inj (Option.some.inj hread)).1]
    exact ⟨trivial, rfl⟩
  · obtain ⟨⟨s, left⟩, -, heq⟩ := Option.map_eq_some_iff.mp hread
    rw [← (Prod.mk.inj heq).1]
    exact ⟨trivial, rfl⟩
  · obtain ⟨⟨n, left⟩, hn, heq⟩ := Option.map_eq_some_iff.mp hread
    rw [← (Prod.mk.inj heq).1]
    exact ⟨Number.hasWord_of_read hn, rfl⟩

/-- A value that is read is nested no deeper than the reader may go. -/
theorem yields_readValue (d : Nat) : Yields (readValue d) fun v => v.HasWords ∧ v.depth ≤ d := by
  induction d with
  | zero =>
    intro cs v rest hread
    obtain ⟨hwords, hdepth⟩ := yields_readScalar cs v rest hread
    exact ⟨hwords, Nat.le_of_eq hdepth⟩
  | succ d ih =>
    intro cs v rest hread
    rw [readValue.eq_def] at hread
    split at hread
    · contradiction
    · next d' inner heq =>
      obtain rfl := Nat.succ.inj heq
      obtain ⟨⟨items, left⟩, hitems, hv⟩ := Option.map_eq_some_iff.mp hread
      have hall := ih.readList ']' _ _ _ hitems
      rw [← (Prod.mk.inj hv).1]
      exact ⟨(all_array _ _).mpr ⟨trivial, fun i hi => (hall i hi).1⟩,
        (depth_array_le_iff _ _).mpr fun i hi => (hall i hi).2⟩
    · next d' inner heq =>
      obtain rfl := Nat.succ.inj heq
      obtain ⟨⟨members, left⟩, hmembers, hv⟩ := Option.map_eq_some_iff.mp hread
      have hall := ih.readMember.readList '\x7d' _ _ _ hmembers
      rw [← (Prod.mk.inj hv).1]
      exact ⟨(all_object _ _).mpr ⟨trivial, fun m hm => (hall m hm).1⟩,
        (depth_object_le_iff _ _).mpr fun m hm => (hall m hm).2⟩
    · obtain ⟨hwords, hdepth⟩ := yields_readScalar _ _ _ hread
      exact ⟨hwords, by omega⟩

/-- What the reader accepts as a whole text. -/
theorem hasWords_and_depth_le_of_read? {text : String} {v : Json} (h : read? text = some v) :
    v.HasWords ∧ v.depth ≤ maxDepth := by
  rw [read?] at h
  split at h
  · contradiction
  · next value rest hread =>
    split_ifs at h
    rw [← Option.some.inj h]
    exact yields_readValue maxDepth _ _ _ hread

/-- No number in a value is written with a fraction or an exponent, or too large. -/
def IsFloatFree (v : Json) : Prop :=
  v.All fun
    | .number (.float _) => False
    | _ => True

lemma isWhole_iff {v : Json} : v.IsWhole ↔ v.HasWords ∧ v.IsFloatFree := by
  induction v with
  | number n =>
    cases n with
    | int i => exact (and_iff_left trivial).symm
    | float x => exact (and_iff_right trivial).symm
  | array items ih =>
    simp only [IsWhole, HasWords, IsFloatFree, all_array, true_and] at ih ⊢
    rw [← forall₂_and]
    exact forall₂_congr ih
  | object members ih =>
    simp only [IsWhole, HasWords, IsFloatFree, all_object, true_and] at ih ⊢
    rw [← forall₂_and]
    exact forall₂_congr ih
  | _ => exact (and_iff_left trivial).symm

/-! Merging repeated keys changes nothing of this. -/

lemma mem_insert {key : String} {value : Json} {members : Members} {m : String × Json}
    (h : m ∈ members.insert key value) : m ∈ members ∨ m = (key, value) := by
  induction members with
  | nil => exact Or.inr (List.mem_singleton.mp h)
  | cons first members ih =>
    obtain ⟨k, v⟩ := first
    rw [Members.insert] at h
    split_ifs at h with hkey
    · rcases List.mem_cons.mp h with rfl | h
      · exact Or.inr (by rw [hkey])
      · exact Or.inl (List.mem_cons_of_mem _ h)
    · rcases List.mem_cons.mp h with rfl | h
      · exact Or.inl List.mem_cons_self
      · exact (ih h).imp_left (List.mem_cons_of_mem _)

/-- Merged members are those seen before and the others with their values merged. -/
lemma mem_mergedMembers {seen members : Members} {m : String × Json}
    (h : m ∈ mergedMembers seen members) :
    m ∈ seen ∨ ∃ m' ∈ members, m = (m'.1, m'.2.merged) := by
  induction members generalizing seen with
  | nil => exact Or.inl h
  | cons first members ih =>
    rw [mergedMembers] at h
    rcases ih h with hseen | ⟨m', hm', hm⟩
    · rcases mem_insert hseen with hseen | hm
      · exact Or.inl hseen
      · exact Or.inr ⟨first, List.mem_cons_self, hm⟩
    · exact Or.inr ⟨m', List.mem_cons_of_mem _ hm', hm⟩

lemma nodup_keys_mergedMembers {seen : Members} (h : seen.keys.Nodup) (members : Members) :
    (Members.keys (mergedMembers seen members)).Nodup := by
  induction members generalizing seen with
  | nil => exact h
  | cons m members ih =>
    obtain ⟨key, value⟩ := m
    rw [mergedMembers]
    refine ih ?_
    rw [Members.keys_insert]
    split_ifs with hkey
    · exact h
    · refine List.nodup_append.mpr ⟨h, List.nodup_singleton _, ?_⟩
      rintro k hk _ hk' rfl
      exact hkey (List.mem_singleton.mp hk' ▸ hk)

/-- Every member of a merged object is the merged form of one that was written. -/
lemma forall_mem_merged {p : Json → Prop} {members : Members}
    (h : ∀ m ∈ members, p m.2.merged) : ∀ m ∈ mergedMembers [] members, p m.2 := by
  intro m hm
  obtain hnil | ⟨m', hm', rfl⟩ := mem_mergedMembers hm
  · contradiction
  · exact h m' hm'

/-- What is asked of scalars only is kept. -/
lemma all_merged {p : Json → Prop} (harray : ∀ items, p (array items))
    (hobject : ∀ members, p (object members)) {v : Json} (h : v.All p) : v.merged.All p := by
  induction v with
  | array items ih =>
    rw [merged, mergedItems_eq_map, all_array]
    refine ⟨harray _, List.forall_mem_map.mpr fun item hi => ?_⟩
    exact ih item hi (((all_array _ _).mp h).2 item hi)
  | object members ih =>
    rw [merged, all_object]
    exact ⟨hobject _, forall_mem_merged fun m hm => ih m hm (((all_object _ _).mp h).2 m hm)⟩
  | null => exact h
  | bool b => exact h
  | number n => exact h
  | string s => exact h

lemma depth_merged_le {v : Json} {d : Nat} (h : v.depth ≤ d) : v.merged.depth ≤ d := by
  induction v generalizing d with
  | array items ih =>
    obtain ⟨d, rfl, hitems⟩ := exists_depth_of_array h
    rw [merged, mergedItems_eq_map, depth_array_le_iff]
    exact List.forall_mem_map.mpr fun item hi => ih item hi (hitems item hi)
  | object members ih =>
    obtain ⟨d, rfl, hmembers⟩ := exists_depth_of_object h
    rw [merged, depth_object_le_iff]
    exact forall_mem_merged (p := fun v => v.depth ≤ d) fun m hm => ih m hm (hmembers m hm)
  | _ => exact Nat.zero_le _

/-- A value that a text denotes holds every key once. -/
lemma hasDistinctKeys_merged (v : Json) : v.merged.HasDistinctKeys := by
  induction v with
  | array items ih =>
    rw [merged, mergedItems_eq_map, HasDistinctKeys, all_array]
    exact ⟨trivial, List.forall_mem_map.mpr ih⟩
  | object members ih =>
    rw [merged, HasDistinctKeys, all_object]
    have hkeys : (Members.keys []).Nodup := List.nodup_nil
    exact ⟨nodup_keys_mergedMembers hkeys members, forall_mem_merged ih⟩
  | _ => exact trivial

/-! Text that is nested too deep. -/

/-- Text that a reader refuses, whatever follows. -/
structure Refuses {α : Type} (item : List Char → Option (α × List Char))
    (cs : List Char) : Prop where
  read : ∀ rest, item (cs ++ rest) = none
  start : ∃ c tail, cs = c :: tail ∧ isGap c = false ∧ c ≠ ']' ∧ c ≠ '\x7d'

lemma Refuses.skipBlank {α : Type} {item : List Char → Option (α × List Char)} {cs : List Char}
    (h : Refuses item cs) (rest : List Char) : Json.skipBlank (cs ++ rest) = cs ++ rest := by
  obtain ⟨c, tail, rfl, hc, -⟩ := h.start
  rw [List.cons_append, skipBlank_cons hc]

section Lists

variable {α : Type} {item : List Char → Option (α × List Char)} {write : α → List Char}
  {close : Char} {xs : List α}

/-- Items are refused together if one of them is. -/
lemma readItems_refused (hxs : ∀ x ∈ xs, Spells item (write x) x ∨ Refuses item (write x))
    (h : ∃ x ∈ xs, Refuses item (write x)) (fuel : Nat) (rest : List Char) :
    readItems item close fuel ([','].intercalate (xs.map write) ++ rest) = none := by
  induction xs generalizing fuel with
  | nil =>
    obtain ⟨x, hx, -⟩ := h
    contradiction
  | cons x xs ih =>
    obtain ⟨hx, hrest⟩ := List.forall_mem_cons.mp hxs
    cases fuel with
    -- Without fuel nothing is read, so no bound on the number of items is needed.
    | zero => rfl
    | succ fuel =>
      cases xs with
      | nil =>
        obtain ⟨x', hx', hrefused⟩ := h
        obtain rfl := List.mem_singleton.mp hx'
        rw [List.map_singleton, List.intercalate_singleton, readItems, hrefused.skipBlank,
          hrefused.read]
      | cons y ys =>
        rw [List.map_cons, List.map_cons, List.intercalate_cons_cons, ← List.map_cons,
          List.append_assoc, List.append_assoc, List.singleton_append, readItems]
        rcases hx with hspelled | hrefused
        · have hstop : Number.Stops (',' :: ([','].intercalate ((y :: ys).map write) ++ rest)) := by
            rw [Number.stops_cons]
            decide
          have hskip := hspelled.skipBlank isGap_of_mem_nil
          simp only [List.nil_append] at hskip
          have hlater : ∃ x ∈ y :: ys, Refuses item (write x) := by
            obtain ⟨x', hx', hrefused⟩ := h
            rcases List.mem_cons.mp hx' with rfl | hx'
            · have hread := hspelled.read [] Number.stops_nil
              rw [hrefused.read] at hread
              contradiction
            · exact ⟨x', hx', hrefused⟩
          rw [hskip, hspelled.read _ hstop]
          simp only [skipBlank_cons (c := ',') (by decide), if_true, ih hrest hlater,
            Option.map_none]
        · rw [hrefused.skipBlank, hrefused.read]

/-- A list is refused if some of its items are nested too deep. -/
lemma readList_refused {depth : α → Nat} {d : Nat}
    (hflat : ∀ x ∈ xs, depth x ≤ d → Spells item (write x) x)
    (hdeep : ∀ x ∈ xs, d < depth x → Refuses item (write x)) (h : ¬∀ x ∈ xs, depth x ≤ d)
    (hclose : IsClosing close) (rest : List Char) :
    readList item close ([','].intercalate (xs.map write) ++ rest) = none := by
  have heach : ∀ x ∈ xs, Spells item (write x) x ∨ Refuses item (write x) := by
    intro x hx
    rcases Nat.lt_or_ge d (depth x) with hlt | hle
    · exact Or.inr (hdeep x hx hlt)
    · exact Or.inl (hflat x hx hle)
  obtain ⟨x, hx, hlt⟩ : ∃ x ∈ xs, d < depth x := by simpa using h
  have hitems : ∀ fuel,
      readItems item close fuel ([','].intercalate (xs.map write) ++ rest) = none :=
    fun fuel => readItems_refused heach ⟨x, hx, hdeep x hx hlt⟩ fuel rest
  obtain ⟨c, tail, hc, hstart, hsquare, hcurly⟩ := exists_cons_intercalate
    (fun x hx => (heach x hx).elim Spells.start Refuses.start) (List.ne_nil_of_mem hx) [',']
  have hopen : c ≠ close := by rcases hclose with rfl | rfl <;> assumption
  rw [hc, List.cons_append] at hitems ⊢
  rw [readList, skipBlank_cons hstart]
  simp only [if_neg hopen, hitems]

end Lists

/-- A bracket begins no scalar. -/
lemma readScalar_bracket {c : Char} (h : c = '[' ∨ c = '\x7b') (cs : List Char) :
    readScalar (c :: cs) = none := by
  rcases h with rfl | rfl <;> rfl

lemma refuses_member {d : Nat} {cs : List Char} (h : Refuses (readValue d) cs) (key : String) :
    Refuses (readMember (readValue d)) ((quoted key).toList ++ ':' :: cs) where
  read rest := by
    rw [toList_quoted, List.cons_append, List.cons_append, readMember]
    simp only [List.append_assoc, List.nil_append, readQuoted_escaped, List.cons_append,
      skipBlank_cons (c := ':') (by decide), h.skipBlank, h.read rest, Option.map_none]
  start := ⟨'"', _, by rw [toList_quoted]; rfl, by decide⟩

lemma toList_text_array (items : List Json) : (array items).text.toList =
    '[' :: ([','].intercalate (items.map fun item => item.text.toList) ++ [']']) := by
  simp [text, itemTexts_eq_map, String.toList_append, String.toList_intercalate, Function.comp_def]

lemma toList_text_object (members : Members) : (object members).text.toList =
    '\x7b' :: ([','].intercalate (members.map fun m => (memberText m).toList) ++ ['\x7d']) := by
  simp [text, memberTexts_eq_map, String.toList_append, String.toList_intercalate,
    Function.comp_def]

/-- The text of a value of whole numbers is refused if the nesting that is left does not suffice. -/
theorem refuses_text {v : Json} (hv : v.IsWhole) {d : Nat} (hd : d < v.depth) :
    Refuses (readValue d) v.text.toList := by
  induction v generalizing d with
  | array items ih =>
    have hwhole := ((all_array _ _).mp hv).2
    refine ⟨fun rest => ?_, (spells_text hv (Nat.le_refl _)).start⟩
    rw [toList_text_array, List.cons_append, List.append_assoc]
    cases d with
    | zero => exact readScalar_bracket (Or.inl rfl) _
    | succ d =>
      rw [← Nat.not_le, depth_array_le_iff] at hd
      rw [readValue, readList_refused (fun item hi hle => spells_text (hwhole item hi) hle)
        (fun item hi hlt => ih item hi (hwhole item hi) hlt) hd (Or.inl rfl), Option.map_none]
  | object members ih =>
    have hwhole := ((all_object _ _).mp hv).2
    refine ⟨fun rest => ?_, (spells_text hv (Nat.le_refl _)).start⟩
    rw [toList_text_object, List.cons_append, List.append_assoc]
    cases d with
    | zero => exact readScalar_bracket (Or.inr rfl) _
    | succ d =>
      rw [← Nat.not_le, depth_object_le_iff] at hd
      have hdeep : ∀ m ∈ members, d < m.2.depth →
          Refuses (readMember (readValue d)) (memberText m).toList := by
        intro m hm hlt
        have h := refuses_member (ih m hm (hwhole m hm) hlt) m.1
        simpa [memberText, String.toList_append] using h
      rw [readValue, readList_refused
        (fun m hm hle => spells_memberText (spells_text (hwhole m hm) hle)) hdeep hd (Or.inr rfl),
        Option.map_none]
  | _ => exact absurd hd (Nat.not_lt_zero d)

/-- A text that denotes a value without fractions spells it in full. -/
theorem isWhole_and_hasDistinctKeys_of_parse? {text : String} {v : Json} (h : parse? text = some v)
    (hfree : v.IsFloatFree) : v.IsWhole ∧ v.HasDistinctKeys ∧ v.depth ≤ maxDepth := by
  obtain ⟨written, hread, rfl⟩ := Option.map_eq_some_iff.mp h
  obtain ⟨hwords, hdepth⟩ := hasWords_and_depth_le_of_read? hread
  have hmerged := all_merged (fun _ => trivial) (fun _ => trivial) hwords
  exact ⟨isWhole_iff.mpr ⟨hmerged, hfree⟩, hasDistinctKeys_merged written,
    depth_merged_le hdepth⟩

/-- A value of whole numbers is denoted by its text. -/
theorem parse?_text {v : Json} (hwhole : v.IsWhole) (hdistinct : v.HasDistinctKeys)
    (hdepth : v.depth ≤ maxDepth) : parse? v.text = some v := by
  rw [parse?, read?_text hwhole hdepth, Option.map_some, merged_eq_self hdistinct]

/-- A value that is nested too deep for the reader is not read back from its text. -/
theorem read?_text_eq_none {v : Json} (hv : v.IsWhole) (hd : maxDepth < v.depth) :
    read? v.text = none := by
  have hrefused := refuses_text hv hd
  have hskip := hrefused.skipBlank []
  have hread := hrefused.read []
  rw [List.append_nil] at hskip hread
  simp only [read?, hskip, hread]

end Json

end SampleTypes
