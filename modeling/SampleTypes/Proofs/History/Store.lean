import SampleTypes.History.Store
import SampleTypes.Proofs.Files.Frame
import SampleTypes.Proofs.History.Entry

/-! A history in a file of a tree. What a store shows is a function of the content of its file, and
after a successful save that content is the text of the recorded list. No other file changes, and
what a save does to the history does not depend on other files. -/
namespace SampleTypes.History.Store

open Files

/-- The entries that a store shows in a tree. -/
def shown (s : Store) (t : Tree) : List Entry :=
  (((t.read? s.path).bind Content.text?).map decode).getD []

lemma run_entries (s : Store) (t : Tree) :
    (s.entries (m := StateM Tree)).run t = (s.shown t, t) := rfl

lemma run_last (s : Store) (t : Tree) (feature : String) :
    (s.last (m := StateM Tree) feature).run t = (lastInput feature (s.shown t), t) := rfl

/-- The list that a save keeps. -/
def recorded (s : Store) (t : Tree) (now : Int) (feature input : String) (extra : Members) :
    List Entry :=
  record s.limit (Entry.create now feature input extra) (s.shown t)

/-- A blank input changes nothing. -/
lemma run_save_blank (s : Store) (t : Tree) (now : Int) (feature : String) {input : String}
    (extra : Members) (h : Text.isBlankText input = true) :
    (s.save (m := StateM Tree) now feature input extra).run t = (.ignored, t) := by
  simp [save, h]; rfl

/-- Any other input is recorded, if the file can be written. -/
lemma run_save (s : Store) (t : Tree) (now : Int) (feature : String) {input : String}
    (extra : Members) (h : Text.isBlankText input = false) :
    (s.save (m := StateM Tree) now feature input extra).run t =
      match t.write s.path (.text (encode (s.recorded t now feature input extra))) with
      | (t', true) => (.saved, t')
      | (t', false) => (.failed, t') := by
  rw [save, if_neg (by simp [h])]
  let written := (FileSystem.writeText (m := StateM Tree) s.path
    (encode (s.recorded t now feature input extra))).run t
  change (if written.1 = true then pure SaveResult.saved else pure SaveResult.failed :
    StateM Tree SaveResult).run written.2 = _
  cases hw : t.write s.path (.text (encode (s.recorded t now feature input extra))) with
  | mk t' done =>
    have hwritten : written = (done, t') := by
      change ((t.write _ _).2, (t.write _ _).1) = _
      rw [hw]
    rw [hwritten]
    cases done <;> rfl

/-- What a save that succeeds leaves in the store is the recorded list, if that reads back. -/
theorem shown_of_write {s : Store} {t t' : Tree} {es : List Entry}
    (hwrite : t.write s.path (.text (encode es)) = (t', true))
    (hes : ∀ e ∈ es, e.IsStorable) : s.shown t' = es := by
  rw [shown, Tree.read?_write hwrite]
  exact decode_encode hes

/-! What a save does to the files of a tree. -/

section

variable (s : Store) (t : Tree) (now : Int) (feature input : String) (extra : Members)

lemma run_save_snd :
    ((s.save (m := StateM Tree) now feature input extra).run t).2 =
      if Text.isBlankText input then t
      else (t.write s.path (.text (encode (s.recorded t now feature input extra)))).1 := by
  cases h : Text.isBlankText input with
  | true => rw [run_save_blank s t now feature extra h, if_pos rfl]
  | false =>
    rw [run_save s t now feature extra h, if_neg Bool.false_ne_true]
    split
    · next hwrite => rw [hwrite]
    · next hwrite => rw [hwrite]

lemma placeOf_save (path : String) :
    ((s.save (m := StateM Tree) now feature input extra).run t).2.placeOf path =
      t.placeOf path := by
  rw [run_save_snd]
  split_ifs
  · rfl
  · exact Tree.placeOf_write _ _ _ _

variable {t}

/-- A save changes no file but that of the history. -/
lemma fileAt?_save_of_ne {place : List String} (h : place ≠ t.placeOf s.path) :
    ((s.save (m := StateM Tree) now feature input extra).run t).2.fileAt? place =
      t.fileAt? place := by
  rw [run_save_snd]
  split_ifs
  · rfl
  · exact Tree.fileAt?_write_of_ne _ h

/-- A save makes the same of the history after another file was written. -/
lemma fileAt?_save_write {path : String} (content : Content) (hfinds : t.Finds s.path)
    (hapart : t.Apart path s.path) :
    ((s.save (m := StateM Tree) now feature input extra).run (t.write path content).1).2.fileAt?
        (t.placeOf s.path) =
      ((s.save (m := StateM Tree) now feature input extra).run t).2.fileAt?
        (t.placeOf s.path) := by
  have hshown : s.shown (t.write path content).1 = s.shown t := by
    rw [shown, shown, Tree.read?_write_of_ne content hfinds hapart.ne]
  have hrecorded : s.recorded (t.write path content).1 now feature input extra =
      s.recorded t now feature input extra := by
    rw [recorded, recorded, hshown]
  have hsame := Tree.fileAt?_write_of_ne content hapart.ne.symm
  have hsucceeds (c : Content) :
      ((t.write path content).1.write s.path c).2 = (t.write s.path c).2 :=
    Bool.eq_iff_iff.mpr (by
      rw [Tree.write_succeeds_iff, Tree.write_succeeds_iff, Tree.canWrite_write_iff content hapart])
  rw [run_save_snd, run_save_snd, hrecorded]
  split_ifs
  · exact hsame
  · have hplace := Tree.placeOf_write content t path s.path
    rw [← hplace, Tree.fileAt?_write_self, hplace, Tree.fileAt?_write_self, hsame, hsucceeds]

end

end SampleTypes.History.Store
