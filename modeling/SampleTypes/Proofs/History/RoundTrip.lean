import SampleTypes.Proofs.History.Kept

/-! One entry as text. A new entry keeps the attributes of its caller, its text spells every key
once, and what is read from the text of an entry is this entry again. -/
namespace SampleTypes.History.Entry

open Json

variable {e : Entry}

/-- The own fields come first, and no key is written twice. -/
lemma IsSound.nodup_keys_members (h : e.IsSound) : e.members.keys.Nodup := by
  have hkeys : e.members.keys = ownKeys ++ e.extra.keys := by simp [members, Members.keys, ownKeys]
  rw [hkeys]
  apply List.nodup_append.mpr
  refine ⟨by decide, h.keys, ?_⟩
  rintro key hown _ hextra rfl
  exact h.own key hown hextra

/-- Attributes that leave one level for the entry around them are read together with it. -/
lemma IsSound.read?_text (h : e.IsSound) (hdepth : ∀ m ∈ e.extra, m.2.depth ≤ 126) :
    read? e.toJson.text = some (object e.members) :=
  Json.read?_text h.isWhole_toJson ((depth_toJson_le_iff e 126).mpr hdepth)

lemma IsSound.parse?_text (h : e.IsSound) (hdepth : ∀ m ∈ e.extra, m.2.depth ≤ 126) :
    parse? e.toJson.text = some e := by
  have hread : read? e.toJson.text = some e.toJson := h.read?_text hdepth
  rw [parse?, hread, Option.bind_some, h.ofJson?_toJson]

/-- A text without fractions from which an entry is read spells an entry in full. -/
lemma isSound_of_parse? {text : String} (h : parse? text = some e)
    (hfree : ∀ v, read? text = some v → v.IsFloatFree) :
    e.IsSound ∧ ∀ m ∈ e.extra, m.2.depth ≤ 126 := by
  obtain ⟨v, hread, hentry⟩ := Option.bind_eq_some_iff.mp h
  obtain ⟨hwords, hdepth⟩ := hasWords_and_depth_le_of_read? hread
  constructor
  · exact isSound_of_hasWords hentry hwords (isFloatFree_of_ofJson? hentry (hfree v hread))
  · exact depth_le_of_ofJson? hentry hdepth

/-- A new entry has the attributes of its caller but for those under the keys of its own fields.
Its text is an object that holds each key once, the own fields first, and is read as this entry.
An entry that was read from any text without fractions is read again from its own text, and no
attribute of an entry that was read stands under the key of an own field. -/
theorem entry_reads_back :
    (∀ (now : Int) (feature input : String) (extra : Members), FitsSigned now →
      (object extra).IsWhole → (object extra).HasDistinctKeys → (object extra).depth ≤ 127 →
      let e := create now feature input extra
      (∀ m, m ∈ e.extra ↔ m ∈ extra ∧ m.1 ∉ ["module", "input", "time"]) ∧ e.extra.keys.Nodup ∧
        (∃ written : Members, read? e.toJson.text = some (object written) ∧ written.keys.Nodup ∧
          written.keys = ["module", "input", "time"] ++ e.extra.keys) ∧
        parse? e.toJson.text = some e) ∧
    ∀ (text : String) (e : Entry), parse? text = some e →
      ((∀ v, read? text = some v → v.IsFloatFree) → parse? e.toJson.text = some e) ∧
        ∀ key ∈ ["module", "input", "time"], key ∉ e.extra.keys := by
  constructor
  · intro now feature input extra hnow hwhole hdistinct hdepth e
    have hkeys := ((all_object _ _).mp hdistinct).1
    have hsound : e.IsSound := isSound_create hnow hwhole hdistinct feature input
    have hmem : ∀ m, m ∈ e.extra ↔ m ∈ extra ∧ m.1 ∉ ownKeys :=
      fun m => mem_extra_create feature input hkeys
    have hroom : ∀ m ∈ e.extra, m.2.depth ≤ 126 :=
      fun m hm => (depth_object_le_iff extra 126).mp hdepth m ((hmem m).mp hm).1
    refine ⟨hmem, hsound.keys, ⟨e.members, hsound.read?_text hroom, hsound.nodup_keys_members, ?_⟩,
      hsound.parse?_text hroom⟩
    simp [members, Members.keys]
  · intro text e h
    constructor
    · intro hfree
      obtain ⟨hsound, hroom⟩ := isSound_of_parse? h hfree
      exact hsound.parse?_text hroom
    · obtain ⟨v, -, hentry⟩ := Option.bind_eq_some_iff.mp h
      exact notMem_keys_of_ofJson? hentry

/-- Attributes nested as deep as can be, one of them under a key that is taken, and a text that
gives an attribute twice. -/
theorem entry_reads_back_twice_given :
    let extra : Members := [("a", Store.nestedArrays 125), ("time", .null), ("b", .bool true)]
    let written : Members := [("a", .number (.int 1)), ("time", .number (.int 5)),
      ("module", .string "m"), ("input", .string "i"), ("a", .array [.number (.int 2)])]
    let e : Entry := ⟨"m", "i", 5, [("a", .array [.number (.int 2)])]⟩
    (FitsSigned 7 ∧ (object extra).IsWhole ∧ (object extra).HasDistinctKeys ∧
      (object extra).depth ≤ 127) ∧
    (parse? (object written).text = some e ∧
      ∀ v, read? (object written).text = some v → v.IsFloatFree) ∧
      parse? (create 7 "m" "i" extra).toJson.text = some (create 7 "m" "i" extra) ∧
      parse? e.toJson.text = some e := by
  intro extra written e
  have hall : ∀ p : Json → Prop, (∀ items, p (array items)) → p null → p (Json.bool true) →
      p (object extra) → (object extra).All p := by
    intro p harray hnull hbool hobject
    rw [all_object]
    refine ⟨hobject, ?_⟩
    simp only [extra, List.forall_mem_cons, List.not_mem_nil, false_implies, implies_true, and_true]
    exact ⟨Store.all_nestedArrays harray 125, hnull, hbool⟩
  have hwhole : (object extra).IsWhole := hall _ (fun _ => trivial) trivial trivial trivial
  have hdistinct : (object extra).HasDistinctKeys :=
    hall _ (fun _ => trivial) trivial trivial (by simp [extra])
  have hdepth : (object extra).depth ≤ 126 + 1 := by
    rw [depth_object_le_iff]
    simp [extra, Store.depth_nestedArrays, depth]
  have hwritten : (object written).IsWhole := by simp [IsWhole, written, Number.IsWord]
  have hread : read? (object written).text = some (object written) :=
    Json.read?_text hwritten (by simp [written, depth, membersDepth, itemsDepth, maxDepth])
  have hparse : parse? (object written).text = some e := by
    rw [parse?, hread]
    rfl
  have hfree : ∀ v, read? (object written).text = some v → v.IsFloatFree := by
    intro v hv
    rw [← Option.some.inj (hread.symm.trans hv)]
    exact (isWhole_iff.mp hwritten).2
  refine ⟨⟨by decide, hwhole, hdistinct, hdepth⟩, ⟨hparse, hfree⟩, ?_, ?_⟩
  · exact (entry_reads_back.1 7 "m" "i" extra (by decide) hwhole hdistinct hdepth).2.2.2
  · exact (entry_reads_back.2 (object written).text e hparse).1 hfree

end SampleTypes.History.Entry
