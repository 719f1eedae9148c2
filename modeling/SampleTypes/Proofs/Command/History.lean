import SampleTypes.Proofs.Command.Generate
import SampleTypes.Proofs.History.Feature

/-! The listing of a history: as many of its entries as are asked for, each with its number, and
how many more there are. -/
namespace SampleTypes.Command

open Files History

/-- How many entries are shown. -/
def shownCount (limit : Option Nat) (es : List Entry) : Nat :=
  limit.elim es.length fun n => min n es.length

def numberedRow (zone : CivilTime.Zone) (number : Nat) (e : Entry) : String :=
  "  " ++ toString number ++ ". " ++ (Row.ofEntry e zone).text

/-- The lines about entries that are not shown. -/
def moreLines (more : Nat) : List String :=
  if more = 0 then [] else ["", "… " ++ toString more ++ " more"]

variable {zone : CivilTime.Zone} {limit : Option Nat} {es : List Entry} {path : String}

lemma shownCount_le (limit : Option Nat) (es : List Entry) : shownCount limit es ≤ es.length := by
  cases limit with
  | none => exact Nat.le_refl _
  | some n => exact Nat.min_le_right n es.length

/-- Nothing is shown if there is nothing, or nothing is asked for. -/
lemma shownCount_eq_zero_iff : shownCount limit es = 0 ↔ es = [] ∨ limit = some 0 := by
  cases limit with
  | none => simp [shownCount]
  | some n =>
    rw [shownCount, Option.elim_some, Nat.min_eq_zero_iff, List.length_eq_zero_iff, or_comm]
    simp

/-- A listing has the first entries in order and says how many it leaves out. -/
lemma historyListing_eq (zone : CivilTime.Zone) (path : String) (limit : Option Nat)
    (es : List Entry) :
    historyListing zone path limit es =
      if es = [] ∨ limit = some 0 then ["No history yet"]
      else ("History: " ++ path) :: "" ::
        ((es.take (shownCount limit es)).mapIdx fun i e => numberedRow zone (i + 1) e) ++
          moreLines (es.length - shownCount limit es) := by
  have hlength : (es.take (shownCount limit es)).length = shownCount limit es :=
    List.length_take_of_le (shownCount_le limit es)
  have hempty : (es.take (shownCount limit es)).isEmpty = true ↔ es = [] ∨ limit = some 0 := by
    rw [List.isEmpty_iff_length_eq_zero, hlength, shownCount_eq_zero_iff]
  have hshown : historyListing zone path limit es =
      if (es.take (shownCount limit es)).isEmpty then ["No history yet"]
      else ("History: " ++ path) :: "" ::
        ((es.take (shownCount limit es)).mapIdx fun i e => numberedRow zone (i + 1) e) ++
          moreLines (es.length - (es.take (shownCount limit es)).length) := by
    cases limit with
    | none =>
      simp only [historyListing, shownCount, Option.elim_none, List.take_length]
      rfl
    | some n =>
      simp only [historyListing, shownCount, Option.elim_some, ← List.take_eq_take_min]
      rfl
  rw [hshown, hlength]
  exact if_congr hempty rfl rfl

/-- A listing of rows is told from the line that says there are none by its first letter. -/
lemma printed_header_ne (path : String) (ls : List String) :
    printed (("History: " ++ path) :: ls) ≠ printed ["No history yet"] := by
  intro h
  have hhead := congrArg (fun s => s.toList.head?) h
  simp [printed, String.join_cons] at hhead

lemma printed_historyListing_iff :
    printed (historyListing zone path limit es) = printed ["No history yet"] ↔
      es = [] ∨ limit = some 0 := by
  rw [historyListing_eq]
  constructor
  · intro h
    by_contra hrows
    rw [if_neg hrows] at h
    exact printed_header_ne _ _ h
  · intro h
    rw [if_pos h]

section

variable {t : Tree} {settings : Settings} {request : HistoryRequest}

lemma run_showHistory (zone : CivilTime.Zone) (store : Store)
    (h : request.last = false) (t : Tree) :
    (showHistory (m := StateM Tree) zone store request).run t =
      (printed (historyListing zone store.path request.limit
        (request.feature.elim (store.shown t) fun feature => ofFeature feature (store.shown t))),
        t) := by
  rw [showHistory, if_neg (by simp [h])]
  cases request.feature with
  | none => rfl
  | some feature => rfl

/-- A command line that asks for a history shows that of the settings that are found. -/
lemma run_eq_showHistory (standardInput : Option String) (now : Int) (zone : CivilTime.Zone)
    {arguments : List String} {settingsPath : Option String}
    (hrequest : Invocation.ofArguments? arguments = some ⟨settingsPath, .history request⟩)
    (hsettings : ((Settings.discover (m := StateM Tree) settingsPath).run t).1 = .ok settings) :
    (run (m := StateM Tree) (pure standardInput) (pure now) arguments zone).run t =
      let result := (showHistory (m := StateM Tree) zone settings.history.store request).run t
      (.done result.1, result.2) := by
  have hperform : (Invocation.perform (m := StateM Tree) (pure standardInput) (pure now) zone
      ⟨settingsPath, .history request⟩).run.run t =
      (liftM (showHistory (m := StateM Tree) zone settings.history.store request) :
        ExceptT Failure (StateM Tree) String).run.run t :=
    run_bind_ok (run_settings ⟨settingsPath, .history request⟩ hsettings)
  rw [run_eq_perform standardInput now zone hrequest, hperform, run_lift]
  rfl

end

/-- A listing changes nothing and accounts for every selected entry, unless none are asked for. It
says that there is no history just if no entry is selected or the limit is zero. Otherwise it has
a row for each of the first entries, numbered from one, as many as the limit allows; the number of
entries beyond them stands below just if there are any, and together they are all that are
selected. -/
theorem listing_accounts_for_entries (standardInput : Option String) (now : Int)
    (zone : CivilTime.Zone) {arguments : List String} {settingsPath : Option String}
    {request : HistoryRequest} {settings : Settings} {t : Tree}
    (hrequest : Invocation.ofArguments? arguments = some ⟨settingsPath, .history request⟩)
    (hsettings : ((Settings.discover (m := StateM Tree) settingsPath).run t).1 = .ok settings)
    (hlisting : request.last = false) :
    let result := (run (m := StateM Tree) (pure standardInput) (pure now) arguments zone).run t
    let store := settings.history.store
    let stored := ((store.entries (m := StateM Tree)).run t).1
    let selected := request.feature.elim stored fun feature => stored.filter (·.feature = feature)
    let shown := shownCount request.limit selected
    let more := selected.length - shown
    result.2 = t ∧
    (result.1 = .done "No history yet\n" ↔ selected = [] ∨ request.limit = some 0) ∧
    (result.1 ≠ .done "No history yet\n" → ∃ rows,
      result.1 = .done (printed (("History: " ++ store.path) :: "" :: rows ++ moreLines more)) ∧
      rows.length = shown ∧ 0 < shown ∧
      ∀ i e, i < shown → selected[i]? = some e → rows[i]? = some (numberedRow zone (i + 1) e)) ∧
    shown + more = selected.length := by
  intro result store stored selected shown more
  have hresult : result =
      (.done (printed (historyListing zone store.path request.limit selected)), t) := by
    have hrun := run_eq_showHistory standardInput now zone hrequest hsettings
    rw [run_showHistory zone settings.history.store hlisting] at hrun
    exact hrun
  have hshown : shown ≤ selected.length := shownCount_le request.limit selected
  have hnothing : result.1 = .done "No history yet\n" ↔ selected = [] ∨ request.limit = some 0 := by
    rw [hresult, Outcome.done.injEq]
    exact printed_historyListing_iff
  refine ⟨by rw [hresult], hnothing, fun hrows => ?_, Nat.add_sub_cancel' hshown⟩
  have hselects := hnothing.not.mp hrows
  refine ⟨(selected.take shown).mapIdx fun i e => numberedRow zone (i + 1) e, ?_, ?_, ?_, ?_⟩
  · rw [hresult, historyListing_eq, if_neg hselects]
  · rw [List.length_mapIdx, List.length_take_of_le hshown]
  · exact Nat.pos_of_ne_zero fun hzero => hselects (shownCount_eq_zero_iff.mp hzero)
  · intro i e hi he
    rw [List.getElem?_mapIdx, List.getElem?_take_of_lt hi, he]
    rfl

/-- Two entries of one feature and one of another, of which one is to be shown. -/
theorem listing_accounts_for_entries_one_of_two :
    let text := History.encode [⟨"m", "a", 0, []⟩, ⟨"n", "b", 0, []⟩, ⟨"m", "c", 0, []⟩]
    let t : Tree :=
      { workingDirectory := ["work"], nodes := [(["work", ".typesmith"], .directory),
          (["work", ".typesmith", "history.json"], .file (.text text))] }
    let result := (run (m := StateM Tree) (pure none) (pure 7)
      ["history", "--module", "m", "-n", "1"]).run t
    result.1 = .done ("History: .typesmith/history.json\n\n" ++
        "  1. 1970-01-01 00:00 m  a\n\n… 1 more\n") ∧ result.2 = t := by
  intro text t result
  have hrequest : Invocation.ofArguments? ["history", "--module", "m", "-n", "1"] =
      some ⟨none, .history { feature := some "m", limit := some 1 }⟩ := by decide +kernel
  have hsettings : ((Settings.discover (m := StateM Tree) none).run t).1 = .ok {} := rfl
  obtain ⟨htree, -⟩ := listing_accounts_for_entries none 7 .utc hrequest hsettings rfl
  exact ⟨by decide +kernel, htree⟩

/-- There is an entry, and the listing says that there is no history. -/
theorem listing_denies_an_entry :
    let t : Tree :=
      { workingDirectory := ["work"], nodes := [(["work", ".typesmith"], .directory),
          (["work", ".typesmith", "history.json"],
            .file (.text (History.encode [⟨"m", "a", 0, []⟩])))] }
    let store := ({} : Settings).history.store
    (((store.entries (m := StateM Tree)).run t).1).length = 1 ∧
      ((run (m := StateM Tree) (pure none) (pure 7) ["history", "-n", "0"]).run t).1 =
        .done "No history yet\n" := by
  intro t store
  exact ⟨by decide +kernel, by decide +kernel⟩

end SampleTypes.Command
