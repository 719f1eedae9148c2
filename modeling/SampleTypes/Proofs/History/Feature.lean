import SampleTypes.Proofs.History.Kept

/-! Several features in one history. A save puts its entry in front, takes out an older one of the
same feature and drops entries at the end, so the other features can lose their oldest entries and
nothing else. -/
namespace SampleTypes.History

open Files Json

section Lists

variable {limit : Nat} {e : Entry}

/-- The last input of a feature is that of the first entry of the feature. -/
lemma lastInput_eq_head? (feature : String) (es : List Entry) :
    lastInput feature es = ((ofFeature feature es).map (·.input)).head?.getD "" := by
  rw [lastInput, ofFeature, List.head?_map, List.head?_filter]

/-- If what is left of a feature is the newest of its entries, its last input is the same, unless
none is left. -/
lemma lastInput_of_isPrefix {feature : String} {es es' : List Entry}
    (h : ofFeature feature es' <+: ofFeature feature es) :
    lastInput feature es' = lastInput feature es ∨
      lastInput feature es' = "" ∧ ofFeature feature es' = [] := by
  rw [lastInput_eq_head?, lastInput_eq_head?]
  obtain ⟨rest, hrest⟩ := h
  cases hes : ofFeature feature es' with
  | nil => exact Or.inr ⟨rfl, rfl⟩
  | cons first others =>
    left
    rw [← hrest, hes]
    rfl

lemma ofFeature_take_isPrefix (feature : String) (n : Nat) (es : List Entry) :
    ofFeature feature (es.take n) <+: ofFeature feature es :=
  (List.take_prefix n es).filter _

/-- An entry makes room for itself only in its own feature. -/
lemma ofFeature_record_isPrefix {feature : String} (h : feature ≠ e.feature) (es : List Entry) :
    ofFeature feature (record limit e es) <+: ofFeature feature es := by
  have hother : ofFeature feature (e :: es.filter fun x => !x.isFor e.feature e.input) =
      ofFeature feature es := by
    rw [ofFeature, List.filter_cons_of_neg (by simpa using h.symm), List.filter_filter, ofFeature]
    refine List.filter_congr fun x _ => ?_
    by_cases hx : x.feature = feature
    · simp [Entry.isFor, hx, h]
    · simp [hx]
  rw [← hother]
  exact ofFeature_take_isPrefix feature limit _

/-- In its own feature an entry goes before those of other inputs. -/
lemma ofFeature_record_self (hlimit : 1 ≤ limit) (es : List Entry) :
    ∃ kept, kept <+: (ofFeature e.feature es).filter (·.input ≠ e.input) ∧
      ofFeature e.feature (record limit e es) = e :: kept := by
  let others := es.filter fun x => !x.isFor e.feature e.input
  have hothers : ofFeature e.feature others =
      (ofFeature e.feature es).filter (·.input ≠ e.input) := by
    simp only [others, ofFeature, List.filter_filter]
    refine List.filter_congr fun x _ => ?_
    by_cases hx : x.feature = e.feature <;> simp [Entry.isFor, hx]
  refine ⟨ofFeature e.feature (others.take (limit - 1)), ?_, ?_⟩
  · rw [← hothers]
    exact ofFeature_take_isPrefix e.feature (limit - 1) others
  · rw [record, ← Nat.sub_add_cancel hlimit, List.take_succ_cons, ofFeature,
      List.filter_cons_of_pos (by simp)]
    rfl

end Lists

namespace Store

variable {s : Store} {t t' : Tree}

lemma run_entriesOf (s : Store) (t : Tree) (feature : String) :
    (s.entriesOf (m := StateM Tree) feature).run t = (ofFeature feature (s.shown t), t) := rfl

/-- An entry with nothing but the name of a language. -/
lemma isStorable_create_language {now : Int} (hnow : FitsSigned now)
    (feature input language : String) :
    (Entry.create now feature input [("language", .string language)]).IsStorable := by
  have hwhole : (object [("language", .string language)]).IsWhole := by simp [IsWhole]
  have hdistinct : (object [("language", .string language)]).HasDistinctKeys := by
    simp [HasDistinctKeys]
  refine Entry.isStorable_create hnow hwhole hdistinct feature input fun m hm _ => ?_
  rw [List.mem_singleton.mp hm]
  exact Nat.zero_le 125

/-- Features that share a store do not disturb each other. A save that succeeds leaves of every
other feature the newest of its entries, unchanged and in their order; its own entry comes first
in its own feature, before the newest of the entries for other inputs. And at any time the last
input of a feature is that of the first entry listed for it. -/
theorem entriesOf_of_saved {now : Int} {feature input language : String} (hnow : FitsSigned now)
    (hfree : ∀ e ∈ ((s.entries (m := StateM Tree)).run t).1, ∀ a ∈ e.extra, a.2.IsFloatFree)
    (hsave : (s.save (m := StateM Tree) now feature input [("language", .string language)]).run t =
      (.saved, t')) :
    let listed (t : Tree) (feature : String) := ((s.entriesOf (m := StateM Tree) feature).run t).1
    let last (t : Tree) (feature : String) := ((s.last (m := StateM Tree) feature).run t).1
    (∀ other ≠ feature, listed t' other <+: listed t other ∧
      (last t' other = last t other ∨ last t' other = "" ∧ listed t' other = [])) ∧
    (1 ≤ s.limit → last t' feature = input ∧
      ∃ kept, kept <+: (listed t feature).filter (·.input ≠ input) ∧ listed t' feature =
        Entry.create now feature input [("language", .string language)] :: kept) ∧
    ∀ t feature, last t feature = ((listed t feature).map (·.input)).head?.getD "" := by
  intro listed last
  have hshown : s.shown t' = s.recorded t now feature input [("language", .string language)] :=
    shown_of_saved_storable (fun e he => isStorable_of_mem_shown he (hfree e he))
      (isStorable_create_language hnow feature input language) hsave
  simp only [listed, last, run_entriesOf, run_last]
  refine ⟨fun other hother => ?_, fun hlimit => ?_, fun t f => lastInput_eq_head? f (s.shown t)⟩
  · have hkept : ofFeature other (s.shown t') <+: ofFeature other (s.shown t) := by
      rw [hshown]
      exact ofFeature_record_isPrefix hother (s.shown t)
    exact ⟨hkept, lastInput_of_isPrefix hkept⟩
  · let new := Entry.create now feature input [("language", .string language)]
    rw [hshown]
    exact ⟨lastInput_record hlimit new _, ofFeature_record_self (e := new) hlimit (s.shown t)⟩

/-- A history in which one input stands twice. -/
def repeatedEntries : List Entry := [⟨"m", "a", 3, []⟩, ⟨"x", "b", 2, []⟩, ⟨"m", "a", 1, []⟩]

/-- With room for two entries, the older entry of another feature has to go. -/
theorem entriesOf_of_saved_limit_two :
    let s : Store := { path := "h.json", limit := 2 }
    let t : Tree :=
      { workingDirectory := ["work"]
        nodes := [(["work", "h.json"], .file (.text (encode repeatedEntries)))] }
    let saved := (s.save (m := StateM Tree) 4 "m" "c" [("language", .string "Go")]).run t
    (FitsSigned 4 ∧ saved.1 = .saved ∧
      ∀ e ∈ ((s.entries (m := StateM Tree)).run t).1, ∀ a ∈ e.extra, a.2.IsFloatFree) ∧
    (((s.entriesOf (m := StateM Tree) "x").run saved.2).1 <+:
        ((s.entriesOf (m := StateM Tree) "x").run t).1) ∧
      ((s.last (m := StateM Tree) "m").run saved.2).1 = "c" := by
  intro s t saved
  have hstorable : ∀ e ∈ repeatedEntries, e.IsStorable := by
    intro e he
    simp only [repeatedEntries, List.mem_cons, List.not_mem_nil, or_false] at he
    rcases he with rfl | rfl | rfl <;>
      exact ⟨by decide, by simp, by simp, by simp, by simp, by simp⟩
  have hread : t.read? s.path = some (.text (encode repeatedEntries)) := by decide +kernel
  have hshown : s.shown t = repeatedEntries := by
    rw [shown, hread, Option.bind_some, Content.text?, Option.map_some, Option.getD_some]
    exact decode_encode hstorable
  have hfree : ∀ e ∈ ((s.entries (m := StateM Tree)).run t).1, ∀ a ∈ e.extra, a.2.IsFloatFree := by
    rw [run_entries, hshown]
    simp [repeatedEntries]
  have hsaved : saved.1 = .saved := by decide +kernel
  obtain ⟨hothers, hself, -⟩ := entriesOf_of_saved (by decide) hfree
    (Prod.ext hsaved rfl : saved = (.saved, saved.2))
  exact ⟨⟨by decide, hsaved, hfree⟩, (hothers "x" (by decide)).1, (hself (by decide)).1⟩

end Store

end SampleTypes.History
