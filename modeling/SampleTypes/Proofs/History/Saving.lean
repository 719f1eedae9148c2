import SampleTypes.Proofs.History.Store
import SampleTypes.Proofs.Json.Reader

/-! What a save leaves in a tree. Reading takes every problem with the file for an empty history,
and writing fails for those that a new file does not solve; in both cases nothing is lost that was
there. -/
namespace SampleTypes.History

open Files Json

lemma encode_eq (es : List Entry) :
    encode es = "[" ++ ",".intercalate (es.map fun e => e.toJson.text) ++ "]" := by
  rw [encode, text, itemTexts_eq_map, List.map_map]
  rfl

namespace Store

/-- The write that a save comes to decides how it ends. -/
lemma run_save_eq_write (s : Store) (t : Tree) (now : Int) (feature : String) {input : String}
    (extra : Members) (h : Text.isBlankText input = false) :
    (s.save (m := StateM Tree) now feature input extra).run t =
      let written := t.write s.path (.text (encode (s.recorded t now feature input extra)))
      (if written.2 then .saved else .failed, written.1) := by
  rw [run_save s t now feature extra h]
  cases t.write s.path (.text (encode (s.recorded t now feature input extra))) with
  | mk t' done => cases done <;> rfl

/-- A history that cannot be written is listed as before. -/
lemma shown_write_of_not_canWrite {s : Store} {t : Tree} (h : ¬t.CanWrite s.path)
    (content : Content) : s.shown (t.write s.path content).1 = s.shown t := by
  rw [shown, shown, Tree.read?_write_of_not_canWrite h]

end Store

/-- A save has one of three results. It ignores an input just if that is blank, and changes
nothing. It fails just if the file cannot be written, which only depends on the tree: every file
holds what it held then, and the same entries are listed. Otherwise the file holds the new entry
and, in their order, the listed ones for other inputs, as many as the limit allows, in compact
JSON; and no other file changes. -/
theorem save_outcomes (s : Store) (t : Tree) (now : Int) (feature input : String)
    (extra : Members) :
    let run := (s.save (m := StateM Tree) now feature input extra).run t
    let listed := fun t => ((s.entries (m := StateM Tree)).run t).1
    let kept := (Entry.create now feature input extra ::
      (listed t).filter fun e => !e.isFor feature input).take s.limit
    let content := Content.text ("[" ++ ",".intercalate (kept.map fun e => e.toJson.text) ++ "]")
    (run.1 = .ignored ↔ ∀ c ∈ input.toList, Text.isBlank c = true) ∧
    (run.1 = .failed ↔ (∃ c ∈ input.toList, Text.isBlank c = false) ∧ ¬t.CanWrite s.path) ∧
    match run.1 with
    | .ignored => run.2 = t
    | .failed => run.2.fileAt? = t.fileAt? ∧ listed run.2 = listed t
    | .saved => run.2.read? s.path = some content ∧
        run.2.fileAt? = Function.update t.fileAt? (t.placeOf s.path) (some content) := by
  intro run listed kept content
  have hcontent : content = .text (encode (s.recorded t now feature input extra)) := by
    rw [encode_eq]
    rfl
  have hblank : Text.isBlankText input = true ↔ ∀ c ∈ input.toList, Text.isBlank c = true :=
    List.all_eq_true
  have hnotBlank : Text.isBlankText input = false ↔ ∃ c ∈ input.toList, Text.isBlank c = false := by
    simp [Text.isBlankText]
  rw [← hblank, ← hnotBlank]
  cases hinput : Text.isBlankText input with
  | true =>
    have hrun : run = (.ignored, t) := s.run_save_blank t now feature extra hinput
    simp [hrun]
  | false =>
    have hsave : run = (if (t.write s.path content).2 then .saved else .failed,
        (t.write s.path content).1) := by
      rw [hcontent]
      exact s.run_save_eq_write t now feature extra hinput
    have hfiles := Tree.fileAt?_write t s.path content
    by_cases hcan : t.CanWrite s.path
    · have hdone : (t.write s.path content).2 = true := Tree.write_succeeds_iff.mpr hcan
      have hread : (t.write s.path content).1.read? s.path = some content :=
        Tree.read?_write (Prod.ext rfl hdone)
      rw [if_pos hdone] at hsave hfiles
      simp [hsave, hcan, hread, hfiles]
    · have hdone : ¬(t.write s.path content).2 = true := Tree.write_succeeds_iff.not.mpr hcan
      have hlisted : listed (t.write s.path content).1 = listed t :=
        Store.shown_write_of_not_canWrite hcan content
      rw [if_neg hdone] at hsave hfiles
      simp [hsave, hcan, hlisted, hfiles]

example :
    let t : Tree := { workingDirectory := ["w"],
                      nodes := [(["w", "d"], .directory), (["w", "f"], .file (.binary [255]))] }
    ["d", "f/history.json", "f", "n/history.json"].map (fun path =>
      (((Store.mk path 50).save (m := StateM Tree) 0 "m" "a" []).run t).1) =
        [.failed, .failed, .saved, .saved] := by
  decide +kernel

end SampleTypes.History
