import Mathlib.Data.List.Nodup
import SampleTypes.Proofs.History.Store
import SampleTypes.Proofs.Json.Members

/-! A history after any sequence of saves. Dropping the oldest entries after every save leaves the
same as dropping them once from the list of all inputs, the newest first and each of them once. -/
namespace SampleTypes.History

open Files

/-- What tells two inputs apart: the feature and the text. -/
def Entry.pair (e : Entry) : String × String := (e.feature, e.input)

lemma Entry.isFor_eq (e entry : Entry) :
    (!e.isFor entry.feature entry.input) = decide (e.pair ≠ entry.pair) := by
  simp [isFor, pair, Prod.ext_iff]

/-- Of every pair its first entry. -/
def newest : List Entry → List Entry
  | [] => []
  | e :: es => e :: (newest es).filter (·.pair ≠ e.pair)

lemma eraseDups_filter {α : Type} [BEq α] [LawfulBEq α] (p : α → Bool) (l : List α) :
    (l.filter p).eraseDups = l.eraseDups.filter p := by
  match l with
  | [] => rfl
  | a :: l =>
    have ih := eraseDups_filter p (l.filter (!· == a))
    rw [List.eraseDups_cons]
    by_cases ha : p a
    · rw [List.filter_cons_of_pos ha, List.filter_cons_of_pos ha, List.eraseDups_cons, ← ih,
        List.filter_filter, List.filter_filter]
      simp only [Bool.and_comm]
    · have hpass : (l.filter (!· == a)).filter p = l.filter p := by
        rw [List.filter_filter]
        refine List.filter_congr fun x _ => ?_
        by_cases hx : x = a
        · subst hx; simp [ha]
        · simp [hx]
      rw [List.filter_cons_of_neg ha, List.filter_cons_of_neg ha, ← ih, hpass]
termination_by l.length
decreasing_by exact Nat.lt_succ_of_le (List.length_filter_le _ _)

/-- The pairs of the newest entries are all pairs, each at its first place. -/
lemma map_pair_newest (es : List Entry) :
    (newest es).map Entry.pair = (es.map Entry.pair).eraseDups := by
  induction es with
  | nil => rfl
  | cons e es ih =>
    have hfilter : ((newest es).filter (·.pair ≠ e.pair)).map Entry.pair =
        ((newest es).map Entry.pair).filter (!· == e.pair) := by
      rw [List.filter_map]
      congr 1
      exact List.filter_congr fun x _ => by rw [Bool.eq_iff_iff]; simp
    rw [newest, List.map_cons, List.map_cons, List.eraseDups_cons, hfilter, ih, eraseDups_filter]

lemma nodup_pair_newest (es : List Entry) : ((newest es).map Entry.pair).Nodup := by
  induction es with
  | nil => exact List.nodup_nil
  | cons e es ih =>
    rw [newest, List.map_cons, List.nodup_cons]
    refine ⟨?_, ih.sublist (List.filter_sublist.map _)⟩
    intro hmem
    obtain ⟨x, hx, hpair⟩ := List.mem_map.mp hmem
    simpa [hpair] using (List.mem_filter.mp hx).2

/-- The newest entry of a pair is the first one that has it. -/
lemma find?_of_mem_newest {es : List Entry} {e : Entry} (h : e ∈ newest es) :
    es.find? (·.pair = e.pair) = some e := by
  induction es with
  | nil => simp [newest] at h
  | cons first es ih =>
    rw [newest, List.mem_cons] at h
    rcases h with rfl | h
    · simp
    · obtain ⟨hmem, hne⟩ := List.mem_filter.mp h
      have hpair : first.pair ≠ e.pair := fun heq => by simp [heq] at hne
      rw [List.find?_cons_of_neg (by simpa using hpair)]
      exact ih hmem

lemma mem_of_mem_newest {es : List Entry} {e : Entry} (h : e ∈ newest es) : e ∈ es :=
  List.mem_of_find?_eq_some (find?_of_mem_newest h)

/-- Among distinct pairs only one entry can make room, so one entry more than fits is enough. -/
lemma take_filter_take {es : List Entry} (h : (es.map Entry.pair).Nodup) (p : String × String)
    (k : Nat) : ((es.take (k + 1)).filter (·.pair ≠ p)).take k =
      (es.filter (·.pair ≠ p)).take k := by
  induction es generalizing k with
  | nil => simp
  | cons e es ih =>
    obtain ⟨he, hes⟩ := List.nodup_cons.mp h
    rw [List.take_succ_cons]
    by_cases hp : e.pair = p
    · have hpass : ∀ x ∈ es, decide (x.pair ≠ p) = true := by
        intro x hx
        have hne : x.pair ≠ p := fun hxp => he (by rw [hp, ← hxp]; exact List.mem_map_of_mem hx)
        simpa using hne
      rw [List.filter_cons_of_neg (by simpa using hp), List.filter_cons_of_neg (by simpa using hp),
        List.filter_eq_self.mpr hpass,
        List.filter_eq_self.mpr fun x hx => hpass x (List.mem_of_mem_take hx), List.take_take,
        Nat.min_self]
    · cases k with
      | zero => simp
      | succ k =>
        rw [List.filter_cons_of_pos (by simpa using hp),
          List.filter_cons_of_pos (by simpa using hp), List.take_succ_cons,
          List.take_succ_cons, ih hes k]

/-- Recording an entry in a cut list is cutting the list with the entry in front. -/
theorem record_take_newest (limit : Nat) (e : Entry) (es : List Entry) :
    record limit e ((newest es).take limit) = (newest (e :: es)).take limit := by
  simp only [record, Entry.isFor_eq, newest]
  cases limit with
  | zero => simp
  | succ k =>
    rw [List.take_succ_cons, List.take_succ_cons, take_filter_take (nodup_pair_newest es)]

/-- One call of `Store.save`. -/
structure Call where
  time : Int
  feature : String
  input : String
  extra : Members

/-- A value with nothing in it, other than a fraction. -/
def IsAtom : Json → Prop
  | .null | .bool _ | .string _ => True
  | .number n => n.IsWord
  | .array _ | .object _ => False

lemma IsAtom.isWhole {v : Json} (h : IsAtom v) : v.IsWhole := by
  cases v with
  | number n => exact h
  | array items => exact h.elim
  | object members => exact h.elim
  | _ => exact trivial

lemma IsAtom.hasDistinctKeys {v : Json} (h : IsAtom v) : v.HasDistinctKeys := by
  cases v with
  | array items => exact h.elim
  | object members => exact h.elim
  | _ => exact trivial

lemma IsAtom.depth_eq {v : Json} (h : IsAtom v) : v.depth = 0 := by
  cases v with
  | array items => exact h.elim
  | object members => exact h.elim
  | _ => rfl

namespace Call

def pair (c : Call) : String × String := (c.feature, c.input)

/-- The entry that a call asks for. -/
def entry (c : Call) : Entry := Entry.create c.time c.feature c.input c.extra

@[simp] lemma pair_entry (c : Call) : c.entry.pair = c.pair := rfl

/-- Whether a call changes the history at all. -/
def isBlank (c : Call) : Bool := Text.isBlankText c.input

/-- A call with a clock of 64 bits and an object of atoms. -/
structure IsFlat (c : Call) : Prop where
  time : FitsSigned c.time
  keys : c.extra.keys.Nodup
  values : ∀ m ∈ c.extra, IsAtom m.2

variable {c : Call}

/-- An entry keeps the attributes of its call, other than those under its own keys. -/
lemma extra_entry_perm (h : c.IsFlat) :
    c.entry.extra.Perm (c.extra.filter (·.1 ∉ Entry.ownKeys)) :=
  Members.foldl_swapErase_perm Entry.ownKeys h.keys

lemma IsFlat.isStorable (h : c.IsFlat) : c.entry.IsStorable := by
  have hwhole : (Json.object c.extra).IsWhole :=
    (Json.all_object _ _).mpr ⟨trivial, fun m hm => (h.values m hm).isWhole⟩
  have hdistinct : (Json.object c.extra).HasDistinctKeys :=
    (Json.all_object _ _).mpr ⟨h.keys, fun m hm => (h.values m hm).hasDistinctKeys⟩
  refine Entry.isStorable_create h.time hwhole hdistinct c.feature c.input fun m hm _ => ?_
  rw [(h.values m hm).depth_eq]
  omega

end Call

namespace Store

/-- Several saves, one after the other. -/
def saveAll {m : Type → Type} [Monad m] [FileSystem m] (s : Store) (calls : List Call) :
    m (List SaveResult) :=
  calls.mapM fun c => s.save c.time c.feature c.input c.extra

lemma run_saveAll_cons (s : Store) (t : Tree) (c : Call) (calls : List Call) :
    (s.saveAll (m := StateM Tree) (c :: calls)).run t =
      let first := (s.save (m := StateM Tree) c.time c.feature c.input c.extra).run t
      let others := (s.saveAll (m := StateM Tree) calls).run first.2
      (first.1 :: others.1, others.2) := by
  rw [saveAll, List.mapM_cons]
  rfl

/-- A store shows the newest of all entries that were ever recorded. -/
structure Shows (s : Store) (t : Tree) (es : List Entry) : Prop where
  shown : s.shown t = (newest es).take s.limit
  storable : ∀ e ∈ es, e.IsStorable

/-- A save that does not fail adds its entry, unless its input is blank. -/
lemma Shows.save {s : Store} {t t' : Tree} {es : List Entry} {c : Call} {result : SaveResult}
    (h : s.Shows t es) (hc : c.IsFlat)
    (hsave : (s.save (m := StateM Tree) c.time c.feature c.input c.extra).run t = (result, t'))
    (hresult : result ≠ .failed) :
    s.Shows t' (if c.isBlank then es else c.entry :: es) := by
  cases hblank : c.isBlank with
  | true =>
    rw [run_save_blank s t _ _ _ hblank] at hsave
    obtain ⟨-, rfl⟩ := Prod.mk.inj hsave
    simpa using h
  | false =>
    have hrecorded : s.recorded t c.time c.feature c.input c.extra =
        (newest (c.entry :: es)).take s.limit := by
      rw [recorded, h.shown]
      exact record_take_newest s.limit c.entry es
    have hstorable : ∀ e ∈ c.entry :: es, e.IsStorable :=
      List.forall_mem_cons.mpr ⟨hc.isStorable, h.storable⟩
    rw [run_save s t _ _ _ hblank, hrecorded] at hsave
    split at hsave
    · next written hwrite =>
      obtain ⟨-, rfl⟩ := Prod.mk.inj hsave
      refine ⟨?_, by simpa using hstorable⟩
      simp only [Bool.false_eq_true, if_false]
      exact shown_of_write hwrite fun e he =>
        hstorable e (mem_of_mem_newest (List.mem_of_mem_take he))
    · obtain ⟨rfl, -⟩ := Prod.mk.inj hsave
      contradiction

/-- The entries that some calls ask for, the newest first. -/
def asked (calls : List Call) : List Entry :=
  ((calls.filter (!·.isBlank)).reverse).map Call.entry

/-- What saves that all succeed leave, after those of `es`. -/
lemma Shows.saveAll {s : Store} {calls : List Call} {t : Tree} {es : List Entry}
    (h : s.Shows t es) (hflat : ∀ c ∈ calls, c.IsFlat)
    (hdone : .failed ∉ ((s.saveAll (m := StateM Tree) calls).run t).1) :
    s.Shows ((s.saveAll (m := StateM Tree) calls).run t).2 (asked calls ++ es) := by
  induction calls generalizing t es with
  | nil => exact h
  | cons c calls ih =>
    obtain ⟨hc, hcalls⟩ := List.forall_mem_cons.mp hflat
    rw [run_saveAll_cons] at hdone ⊢
    cases hsave : (s.save (m := StateM Tree) c.time c.feature c.input c.extra).run t with
    | mk result t' =>
      simp only [hsave, List.mem_cons, not_or] at hdone ⊢
      have hstep := h.save hc hsave (Ne.symm hdone.1)
      have hrun := ih hstep hcalls hdone.2
      have hasked : asked (c :: calls) ++ es =
          asked calls ++ (if c.isBlank then es else c.entry :: es) := by
        cases hblank : c.isBlank <;> simp [asked, hblank]
      rw [hasked]
      exact hrun

lemma mem_asked {calls : List Call} {e : Entry} (h : e ∈ asked calls) :
    ∃ c ∈ calls, c.isBlank = false ∧ c.entry = e := by
  obtain ⟨c, hc, rfl⟩ := List.mem_map.mp h
  obtain ⟨hmem, hblank⟩ := List.mem_filter.mp (List.mem_reverse.mp hc)
  exact ⟨c, hmem, by simpa using hblank, rfl⟩

/-- An entry that is the newest of its pair was asked for by the last call with this pair. -/
lemma exists_last_call {calls : List Call} {e : Entry} (h : e ∈ newest (asked calls)) :
    ∃ c, calls.reverse.find? (·.pair = e.pair) = some c ∧ c.entry = e := by
  obtain ⟨c', -, hblank, hpair⟩ := mem_asked (mem_of_mem_newest h)
  have hinput : Text.isBlankText e.input = false := by rw [← hpair]; exact hblank
  have hfind := find?_of_mem_newest h
  rw [asked, List.find?_map, ← List.filter_reverse, List.find?_filter] at hfind
  obtain ⟨c, hc, hentry⟩ := Option.map_eq_some_iff.mp hfind
  refine ⟨c, ?_, hentry⟩
  rw [← hc]
  -- A call with the pair of a listed entry is not blank.
  congr 1
  funext call
  by_cases hcall : call.pair = e.pair
  · have hcallInput : call.input = e.input := congrArg Prod.snd hcall
    simp [Call.isBlank, hcallInput, hinput, hcall]
  · simp [hcall]

/-- A store is a bounded list of the most recent inputs. After any saves that succeed, from no
file at all, it lists the pairs of the calls that are not blank, the latest first, each pair once
and no more of them than the limit; and each entry is that of the last call for its pair. -/
theorem entries_saveAll {s : Store} {t : Tree} (hmissing : t.read? s.path = none)
    {calls : List Call} (hflat : ∀ c ∈ calls, c.IsFlat)
    (hdone : .failed ∉ ((s.saveAll (m := StateM Tree) calls).run t).1) :
    let es := ((s.entries (m := StateM Tree)).run ((s.saveAll (m := StateM Tree) calls).run t).2).1
    es.map Entry.pair =
        ((calls.filter (!·.isBlank)).reverse.map Call.pair).eraseDups.take s.limit ∧
      (∀ e ∈ es, ∃ c, calls.reverse.find? (·.pair = e.pair) = some c ∧ e.time = c.time ∧
        e.extra.Perm (c.extra.filter (·.1 ∉ Entry.ownKeys))) ∧
      (es.map Entry.pair).Nodup ∧ (∀ e ∈ es, Text.isBlankText e.input = false) ∧
      es.length ≤ s.limit := by
  intro es
  have hstart : s.Shows t [] := by
    refine ⟨?_, by simp⟩
    simp [shown, hmissing, newest]
  have hend := hstart.saveAll hflat hdone
  rw [List.append_nil] at hend
  have hes : es = (newest (asked calls)).take s.limit := by
    simp only [es, run_entries]
    exact hend.shown
  have hpairs : (asked calls).map Entry.pair =
      (calls.filter (!·.isBlank)).reverse.map Call.pair := by
    rw [asked, List.map_map]
    rfl
  have hmem : ∀ e ∈ es, e ∈ newest (asked calls) := fun e he =>
    List.mem_of_mem_take (hes ▸ he)
  refine ⟨?_, ?_, ?_, ?_, ?_⟩
  · rw [hes, List.map_take, map_pair_newest, hpairs]
  · intro e he
    obtain ⟨c, hc, rfl⟩ := exists_last_call (hmem e he)
    have hmemc : c ∈ calls := List.mem_reverse.mp (List.mem_of_find?_eq_some hc)
    exact ⟨c, hc, rfl, Call.extra_entry_perm (hflat c hmemc)⟩
  · rw [hes, List.map_take]
    exact (nodup_pair_newest _).sublist (List.take_sublist _ _)
  · intro e he
    obtain ⟨c, -, hblank, rfl⟩ := mem_asked (mem_of_mem_newest (hmem e he))
    exact hblank
  · rw [hes, List.length_take]
    omega

/-- Four saves with room for two entries: a blank one, and two for the same input. -/
theorem entries_saveAll_limit_two :
    let s : Store := { path := "h.json", limit := 2 }
    let t : Tree := { workingDirectory := ["work"] }
    let calls : List Call :=
      [⟨1, "rust", "[1]", []⟩, ⟨2, "rust", "[2]", []⟩, ⟨3, "rust", " ", []⟩,
        ⟨4, "rust", "[1]", [("time", .null), ("ok", .bool true)]⟩]
    (t.read? s.path = none ∧ (∀ c ∈ calls, c.IsFlat) ∧
      .failed ∉ ((s.saveAll (m := StateM Tree) calls).run t).1) ∧
      (((s.entries (m := StateM Tree)).run
        ((s.saveAll (m := StateM Tree) calls).run t).2).1).map Entry.pair =
          [("rust", "[1]"), ("rust", "[2]")] := by
  intro s t calls
  have hmissing : t.read? s.path = none := by decide +kernel
  have hflat : ∀ c ∈ calls, c.IsFlat := by
    intro c hc
    simp only [calls, List.mem_cons, List.not_mem_nil, or_false] at hc
    rcases hc with rfl | rfl | rfl | rfl <;> exact ⟨by decide, by decide, by simp [IsAtom]⟩
  have hdone : .failed ∉ ((s.saveAll (m := StateM Tree) calls).run t).1 := by decide +kernel
  refine ⟨⟨hmissing, hflat, hdone⟩, ?_⟩
  rw [(entries_saveAll hmissing hflat hdone).1]
  decide +kernel

end Store

end SampleTypes.History
