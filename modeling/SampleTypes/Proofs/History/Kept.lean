import SampleTypes.Proofs.History.Store
import SampleTypes.Proofs.Json.Accepted
import SampleTypes.Proofs.Json.Members

/-! What a save leaves of a history. All that was read can be written and read again, so whether
anything is left depends on the attributes of the new entry alone. -/
namespace SampleTypes.History

open Files Json

namespace Entry

/-- What an object holds that spells an entry. -/
lemma exists_members_of_ofJson? {v : Json} {e : Entry} (h : ofJson? v = some e) :
    ∃ members, v = .object members ∧ FitsSigned e.time ∧
      e.extra = mergedMembers [] (members.filter fun (key, _) => key ∉ ownKeys) := by
  cases v with
  | object members =>
    rw [ofJson?] at h
    split at h
    · split_ifs at h with htime
      rw [← Option.some.inj h]
      exact ⟨members, rfl, htime, rfl⟩
    · contradiction
  | _ => contradiction

/-- Reading leaves no attribute under the key of an own field. -/
lemma notMem_keys_of_ofJson? {v : Json} {e : Entry} (h : ofJson? v = some e) :
    ∀ key ∈ ownKeys, key ∉ e.extra.keys := by
  obtain ⟨members, rfl, -, hextra⟩ := exists_members_of_ofJson? h
  intro key hown hkey
  obtain ⟨m, hm, rfl⟩ := List.mem_map.mp hkey
  rw [hextra] at hm
  obtain hm | ⟨m', hm', rfl⟩ := mem_mergedMembers hm
  · contradiction
  · simpa [hown] using (List.mem_filter.mp hm').2

/-- An entry that was read is spelled in full by its text, if no attribute of it has a fraction. -/
lemma isSound_of_hasWords {v : Json} {e : Entry} (h : ofJson? v = some e) (hwords : v.HasWords)
    (hfree : ∀ m ∈ e.extra, m.2.IsFloatFree) : e.IsSound := by
  have hown := notMem_keys_of_ofJson? h
  obtain ⟨members, rfl, htime, hextra⟩ := exists_members_of_ofJson? h
  have hvalues := ((all_object _ _).mp hwords).2
  have hnil : (Members.keys []).Nodup := List.nodup_nil
  rw [hextra] at hfree
  refine ⟨htime, ?_, hown, ?_, ?_⟩ <;> rw [hextra]
  · exact nodup_keys_mergedMembers hnil _
  · intro m hm
    refine isWhole_iff.mpr ⟨?_, hfree m hm⟩
    refine forall_mem_merged (p := HasWords) (fun m' hm' => ?_) m hm
    exact all_merged (fun _ => trivial) (fun _ => trivial) (hvalues m' (List.mem_of_mem_filter hm'))
  · exact forall_mem_merged fun m _ => hasDistinctKeys_merged m.2

/-- Attributes are nested no deeper than the object that they were read from allows. -/
lemma depth_le_of_ofJson? {v : Json} {e : Entry} (h : ofJson? v = some e) {d : Nat}
    (hdepth : v.depth ≤ d + 1) : ∀ m ∈ e.extra, m.2.depth ≤ d := by
  obtain ⟨members, rfl, -, hextra⟩ := exists_members_of_ofJson? h
  rw [hextra]
  refine forall_mem_merged (p := fun v => v.depth ≤ d) fun m hm => depth_merged_le ?_
  exact (depth_object_le_iff members d).mp hdepth m (List.mem_of_mem_filter hm)

/-- What has no fraction in a value has none in the attributes read from it. -/
lemma isFloatFree_of_ofJson? {v : Json} {e : Entry} (h : ofJson? v = some e)
    (hfree : v.IsFloatFree) :
    ∀ m ∈ e.extra, m.2.IsFloatFree := by
  obtain ⟨members, rfl, -, hextra⟩ := exists_members_of_ofJson? h
  have hvalues := ((all_object _ _).mp hfree).2
  rw [hextra]
  exact forall_mem_merged fun m hm =>
    all_merged (fun _ => trivial) (fun _ => trivial) (hvalues m (List.mem_of_mem_filter hm))

/-- An entry that was read from a list can be stored again, if no attribute of it has a fraction. -/
lemma isStorable_of_hasWords {v : Json} {e : Entry} (h : ofJson? v = some e) (hwords : v.HasWords)
    (hdepth : v.depth ≤ 126) (hfree : ∀ m ∈ e.extra, m.2.IsFloatFree) : e.IsStorable :=
  (isSound_of_hasWords h hwords hfree).isStorable (depth_le_of_ofJson? h hdepth)

/-- An entry that was read from a list without fractions can be stored again. -/
lemma isStorable_of_ofJson? {v : Json} {e : Entry} (h : ofJson? v = some e) (hwhole : v.IsWhole)
    (hdepth : v.depth ≤ 126) : e.IsStorable := by
  obtain ⟨hwords, hfree⟩ := isWhole_iff.mp hwhole
  exact isStorable_of_hasWords h hwords hdepth (isFloatFree_of_ofJson? h hfree)

end Entry

lemma exists_of_mem_mapM {items : List Json} {es : List Entry}
    (h : items.mapM Entry.ofJson? = some es) : ∀ e ∈ es, ∃ v ∈ items, Entry.ofJson? v = some e := by
  induction items generalizing es with
  | nil =>
    obtain rfl : [] = es := Option.some.inj h
    exact List.forall_mem_nil _
  | cons item items ih =>
    simp only [List.mapM_cons, Option.bind_eq_bind, Option.bind_eq_some_iff, Option.pure_def,
      Option.some.injEq] at h
    obtain ⟨e, he, es, hes, rfl⟩ := h
    refine List.forall_mem_cons.mpr ⟨⟨item, List.mem_cons_self, he⟩, fun e' he' => ?_⟩
    obtain ⟨v, hv, hentry⟩ := ih hes e' he'
    exact ⟨v, List.mem_cons_of_mem _ hv, hentry⟩

/-- Every entry of a list stands in the text as a value of its own. -/
lemma exists_of_mem_decode {text : String} {e : Entry} (he : e ∈ decode text) :
    ∃ items, read? text = some (.array items) ∧ ∃ v ∈ items, Entry.ofJson? v = some e := by
  rw [decode] at he
  split_ifs at he
  · contradiction
  · split at he
    · next items hread =>
      cases hes : items.mapM Entry.ofJson? with
      | none => rw [hes] at he; contradiction
      | some es =>
        rw [hes, Option.getD_some] at he
        exact ⟨items, hread, exists_of_mem_mapM hes e he⟩
    · contradiction

/-- Every entry of a list without fractions can be stored again. -/
lemma isStorable_of_mem_decode {text : String} (hfree : ∀ v, read? text = some v → v.IsFloatFree) :
    ∀ e ∈ decode text, e.IsStorable := by
  intro e he
  obtain ⟨items, hread, v, hv, hentry⟩ := exists_of_mem_decode he
  obtain ⟨hwords, hdepth⟩ := hasWords_and_depth_le_of_read? hread
  have hwhole := ((all_array _ _).mp (isWhole_iff.mpr ⟨hwords, hfree _ hread⟩)).2
  exact Entry.isStorable_of_ofJson? hentry (hwhole v hv)
    ((depth_array_le_iff items 126).mp hdepth v hv)

/-- Fractions outside of the attributes do not keep an entry from being stored again. -/
lemma isStorable_of_mem_decode_of_attributes {text : String} {e : Entry} (he : e ∈ decode text)
    (hfree : ∀ m ∈ e.extra, m.2.IsFloatFree) : e.IsStorable := by
  obtain ⟨items, hread, v, hv, hentry⟩ := exists_of_mem_decode he
  obtain ⟨hwords, hdepth⟩ := hasWords_and_depth_le_of_read? hread
  exact Entry.isStorable_of_hasWords hentry (((all_array _ _).mp hwords).2 v hv)
    ((depth_array_le_iff items 126).mp hdepth v hv) hfree

/-- A list with an entry that is nested too deep is not read back. -/
lemma decode_encode_eq_nil {es : List Entry} (hwhole : ∀ e ∈ es, e.toJson.IsWhole)
    (hdeep : ∃ e ∈ es, 126 < e.toJson.depth) : decode (encode es) = [] := by
  have hdepth : maxDepth < (array (es.map Entry.toJson)).depth := by
    obtain ⟨e, he, hlt⟩ := hdeep
    rw [← Nat.not_le, show maxDepth = 126 + 1 from rfl, depth_array_le_iff]
    exact fun hle => Nat.not_le.mpr hlt (hle _ (List.mem_map_of_mem he))
  rw [decode, if_neg (by simp [isBlankText_encode]), encode,
    read?_text_eq_none (isWhole_list hwhole) hdepth]

namespace Store

variable {s : Store} {t t' : Tree}

/-- A file that holds no number with a fraction, if it holds a value at all. -/
def HoldsNoFloat (s : Store) (t : Tree) : Prop :=
  ∀ text v, (t.read? s.path).bind Content.text? = some text → read? text = some v → v.IsFloatFree

lemma HoldsNoFloat.isStorable (h : s.HoldsNoFloat t) : ∀ e ∈ s.shown t, e.IsStorable := by
  rw [shown]
  cases htext : (t.read? s.path).bind Content.text? with
  | none => exact List.forall_mem_nil _
  | some text => exact isStorable_of_mem_decode fun v hv => h text v htext hv

/-- Entries that are shown can be stored again, if none of their attributes has a fraction. -/
lemma isStorable_of_mem_shown {e : Entry} (he : e ∈ s.shown t)
    (hfree : ∀ m ∈ e.extra, m.2.IsFloatFree) : e.IsStorable := by
  rw [shown] at he
  cases htext : (t.read? s.path).bind Content.text? with
  | none => rw [htext] at he; contradiction
  | some text =>
    rw [htext] at he
    exact isStorable_of_mem_decode_of_attributes he hfree

/-- A list that was written as it was read holds none. -/
lemma holdsNoFloat_of_encode {es : List Entry} (h : ∀ e ∈ es, e.IsStorable)
    (hread : t.read? s.path = some (.text (encode es))) : s.HoldsNoFloat t := by
  intro text v htext hv
  rw [hread] at htext
  rw [← Option.some.inj htext, read?_encode h] at hv
  rw [← Option.some.inj hv]
  exact (isWhole_iff.mp (isWhole_list fun e he => (h e he).isSound.isWhole_toJson)).2

/-- A save that succeeds has written what it records. -/
lemma write_of_saved {now : Int} {feature input : String} {extra : Members}
    (hsave : (s.save (m := StateM Tree) now feature input extra).run t = (.saved, t')) :
    t.write s.path (.text (encode (s.recorded t now feature input extra))) = (t', true) := by
  cases hblank : Text.isBlankText input with
  | true =>
    rw [run_save_blank s t now feature extra hblank] at hsave
    exact absurd (Prod.mk.inj hsave).1 (by decide)
  | false =>
    rw [run_save s t now feature extra hblank] at hsave
    split at hsave
    · next written hwrite =>
      rw [hwrite, (Prod.mk.inj hsave).2]
    · exact absurd (Prod.mk.inj hsave).1 (by decide)

variable {now : Int} {feature input : String} {extra : Members}

/-- A save that succeeds leaves what it records, if all of that can be stored. -/
lemma shown_of_saved_storable (hstored : ∀ e ∈ s.shown t, e.IsStorable)
    (hnew : (Entry.create now feature input extra).IsStorable)
    (hsave : (s.save (m := StateM Tree) now feature input extra).run t = (.saved, t')) :
    s.shown t' = s.recorded t now feature input extra := by
  refine shown_of_write (write_of_saved hsave) fun e he => ?_
  rcases List.mem_cons.mp (List.mem_of_mem_take he) with rfl | he
  · exact hnew
  · exact hstored e (List.mem_of_mem_filter he)

lemma shown_of_saved (hnow : FitsSigned now) (hfile : s.HoldsNoFloat t)
    (hwhole : (object extra).IsWhole) (hdistinct : (object extra).HasDistinctKeys)
    (hsave : (s.save (m := StateM Tree) now feature input extra).run t = (.saved, t'))
    (hfits : Entry.FitsExtra extra) :
    s.shown t' = s.recorded t now feature input extra :=
  shown_of_saved_storable hfile.isStorable
    (Entry.isStorable_create hnow hwhole hdistinct feature input hfits) hsave

lemma shown_of_saved_deep (hlimit : 1 ≤ s.limit) (hnow : FitsSigned now) (hfile : s.HoldsNoFloat t)
    (hwhole : (object extra).IsWhole) (hdistinct : (object extra).HasDistinctKeys)
    (hsave : (s.save (m := StateM Tree) now feature input extra).run t = (.saved, t'))
    (hfits : ¬Entry.FitsExtra extra) : s.shown t' = [] := by
  rw [shown, Tree.read?_write (write_of_saved hsave)]
  refine decode_encode_eq_nil (fun e he => ?_) ⟨Entry.create now feature input extra, ?_, ?_⟩
  · rcases List.mem_cons.mp (List.mem_of_mem_take he) with rfl | he
    · exact (Entry.isSound_create hnow hwhole hdistinct feature input).isWhole_toJson
    · exact (hfile.isStorable e (List.mem_of_mem_filter he)).isSound.isWhole_toJson
  · rw [recorded, record, ← Nat.sub_add_cancel hlimit, List.take_succ_cons]
    exact List.mem_cons_self
  · exact Entry.lt_depth_toJson_create hdistinct feature input hfits

/-- The newest entry of a feature is the one just recorded. -/
lemma lastInput_record {limit : Nat} (hlimit : 1 ≤ limit) (e : Entry) (es : List Entry) :
    lastInput e.feature (record limit e es) = e.input := by
  rw [record, ← Nat.sub_add_cancel hlimit, List.take_succ_cons, lastInput, List.find?_cons_of_pos]
  · rfl
  · exact decide_eq_true rfl

/-- A save that succeeds puts the new entry before those that were listed for other inputs,
provided that the attributes leave room for the nesting around them. Only attributes nested as
deep as can be read do not, and then nothing is listed any more, neither the new entry nor any of
the old ones. -/
theorem entries_of_saved (hlimit : 1 ≤ s.limit) (hnow : FitsSigned now) (hfile : s.HoldsNoFloat t)
    {extraText : String} (hparse : parse? extraText = some (object extra))
    (hfree : (object extra).IsFloatFree)
    (hsave : (s.save (m := StateM Tree) now feature input extra).run t = (.saved, t')) :
    let before := ((s.entries (m := StateM Tree)).run t).1
    let after := ((s.entries (m := StateM Tree)).run t').1
    let last := ((s.last (m := StateM Tree) feature).run t').1
    (Entry.FitsExtra extra ∨ (object extra).depth = 127) ∧
    (Entry.FitsExtra extra →
      after = (Entry.create now feature input extra ::
        before.filter fun e => !e.isFor feature input).take s.limit ∧ last = input) ∧
    (¬Entry.FitsExtra extra → after = [] ∧ last = "") := by
  obtain ⟨hwhole, hdistinct, hdepth⟩ := isWhole_and_hasDistinctKeys_of_parse? hparse hfree
  simp only [run_entries, run_last]
  refine ⟨?_, fun hfits => ?_, fun hfits => ?_⟩
  · rcases Nat.lt_or_ge (object extra).depth 127 with hlt | hge
    · exact Or.inl fun m hm _ => (depth_object_le_iff extra 125).mp (Nat.le_of_lt_succ hlt) m hm
    · exact Or.inr (Nat.le_antisymm hdepth hge)
  · rw [shown_of_saved hnow hfile hwhole hdistinct hsave hfits]
    exact ⟨rfl, lastInput_record hlimit (Entry.create now feature input extra) _⟩
  · rw [shown_of_saved_deep hlimit hnow hfile hwhole hdistinct hsave hfits]
    exact ⟨rfl, rfl⟩

/-- A working directory with a history of one entry in it. -/
def smallTree : Tree :=
  { workingDirectory := ["work"]
    nodes := [(["work", "h.json"], .file (.text (encode [⟨"m", "a", 1, []⟩])))] }

lemma small_isStorable : ∀ e ∈ [(⟨"m", "a", 1, []⟩ : Entry)], e.IsStorable :=
  List.forall_mem_singleton.mpr ⟨by decide, List.nodup_nil, by decide, List.forall_mem_nil _,
    List.forall_mem_nil _, List.forall_mem_nil _⟩

lemma read?_smallTree : smallTree.read? "h.json" = some (.text (encode [⟨"m", "a", 1, []⟩])) := by
  decide +kernel

lemma shown_smallTree : (Store.mk "h.json" 50).shown smallTree = [⟨"m", "a", 1, []⟩] := by
  rw [shown, read?_smallTree]
  exact decode_encode small_isStorable

/-- An attribute for which there is room, saved beside an older entry. -/
theorem entries_of_saved_language :
    let s : Store := { path := "h.json" }
    let extra : Members := [("language", .string "Rust")]
    let saved := (s.save (m := StateM Tree) 2 "m" "b" extra).run smallTree
    ((1 ≤ s.limit ∧ FitsSigned 2 ∧ s.HoldsNoFloat smallTree) ∧
      parse? (object extra).text = some (object extra) ∧ (object extra).IsFloatFree ∧
      saved.1 = .saved) ∧
    Entry.FitsExtra extra ∧
      (((s.entries (m := StateM Tree)).run saved.2).1).map (·.input) = ["b", "a"] := by
  intro s extra saved
  have hfile : s.HoldsNoFloat smallTree := holdsNoFloat_of_encode small_isStorable read?_smallTree
  have hwhole : (object extra).IsWhole := by simp [IsWhole, extra]
  have hdistinct : (object extra).HasDistinctKeys := by simp [HasDistinctKeys, extra]
  have hparse := parse?_text hwhole hdistinct (by decide)
  have hfree := (isWhole_iff.mp hwhole).2
  have hsaved : saved.1 = .saved := by decide +kernel
  have hfits : Entry.FitsExtra extra := by simp [Entry.FitsExtra, extra, depth]
  obtain ⟨-, hkept, -⟩ := entries_of_saved (by decide) (by decide) hfile hparse hfree
    (Prod.ext hsaved rfl : saved = (.saved, saved.2))
  refine ⟨⟨⟨by decide, by decide, hfile⟩, hparse, hfree, hsaved⟩, hfits, ?_⟩
  rw [(hkept hfits).1, run_entries, shown_smallTree]
  decide

/-- Arrays in each other. -/
def nestedArrays : Nat → Json
  | 0 => .array []
  | n + 1 => .array [nestedArrays n]

lemma depth_nestedArrays (n : Nat) : (nestedArrays n).depth = n + 1 := by
  induction n with
  | zero => rfl
  | succ n ih => simp [nestedArrays, depth, itemsDepth, ih]

lemma all_nestedArrays {p : Json → Prop} (h : ∀ items, p (array items)) (n : Nat) :
    (nestedArrays n).All p := by
  induction n with
  | zero => exact (all_array _ _).mpr ⟨h [], List.forall_mem_nil _⟩
  | succ n ih => exact (all_array _ _).mpr ⟨h _, List.forall_mem_singleton.mpr ih⟩

/-- A save that succeeds and leaves nothing: its attribute can be read, but not inside of a
history. -/
theorem saved_history_is_lost :
    let s : Store := { path := "h.json" }
    let extra : Members := [("a", nestedArrays 125)]
    let saved := (s.save (m := StateM Tree) 2 "m" "b" extra).run smallTree
    (s.HoldsNoFloat smallTree ∧ parse? (object extra).text = some (object extra) ∧
      (object extra).IsFloatFree) ∧
    (((s.entries (m := StateM Tree)).run smallTree).1).map (·.input) = ["a"] ∧ saved.1 = .saved ∧
      ((s.entries (m := StateM Tree)).run saved.2).1 = [] ∧
      ((s.last (m := StateM Tree) "m").run saved.2).1 = "" := by
  intro s extra saved
  have hfile : s.HoldsNoFloat smallTree := holdsNoFloat_of_encode small_isStorable read?_smallTree
  have hall : ∀ p : Json → Prop, (∀ items, p (array items)) → p (object extra) →
      (object extra).All p := fun p harray hobject =>
    (all_object _ _).mpr ⟨hobject, List.forall_mem_singleton.mpr (all_nestedArrays harray 125)⟩
  have hwhole : (object extra).IsWhole := hall _ (fun _ => trivial) trivial
  have hdistinct : (object extra).HasDistinctKeys := hall _ (fun _ => trivial) (by simp [extra])
  have hdepth : (object extra).depth ≤ maxDepth := by
    refine (depth_object_le_iff extra 126).mpr (List.forall_mem_singleton.mpr ?_)
    exact Nat.le_of_eq (depth_nestedArrays 125)
  have hdeep : ¬Entry.FitsExtra extra := by
    intro hfits
    have hle := hfits ("a", nestedArrays 125) List.mem_cons_self (by decide)
    rw [depth_nestedArrays] at hle
    omega
  have hsaved : saved.1 = .saved := by decide +kernel
  have hempty := shown_of_saved_deep (by decide) (by decide) hfile hwhole hdistinct
    (Prod.ext hsaved rfl : saved = (.saved, saved.2)) hdeep
  refine ⟨⟨hfile, parse?_text hwhole hdistinct hdepth, (isWhole_iff.mp hwhole).2⟩,
    ?_, hsaved, ?_, ?_⟩
  · rw [run_entries, shown_smallTree]
    rfl
  · rw [run_entries, hempty]
  · rw [run_last, hempty]
    rfl

end Store

end SampleTypes.History
