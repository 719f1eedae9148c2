import SampleTypes.Proofs.Target.DataLiteral

/-! Literals that tell their data. A written value can be taken off the front of a text again: its
first character says what it is, and what stands behind an item says whether another one follows.
So no two values have the same literal, in any layout of this kind. -/
namespace SampleTypes.Target

open Layout Json

/-- What can stand behind a value: nothing, a comma, or the end of a line or a statement. -/
def Ends (rest : List Char) : Prop := ∀ c ∈ rest.head?, c = ',' ∨ c = '\n' ∨ c = ';'

@[simp] lemma ends_nil : Ends [] := by simp [Ends]

@[simp] lemma ends_cons (c : Char) (rest : List Char) :
    Ends (c :: rest) ↔ c = ',' ∨ c = '\n' ∨ c = ';' := by simp [Ends]

lemma Ends.stops {rest : List Char} (h : Ends rest) : Number.Stops rest := by
  intro c hc
  rcases h c hc with rfl | rfl | rfl <;> decide

/-- Whatever follows it, the text of `x` is no other's than that of the same value, and ends where
that does. -/
def Telling {α β : Type} (p : α → Prop) (write : α → List Char) (value : α → β) (x : α) : Prop :=
  ∀ y, p y → ∀ r s, Ends r → Ends s → write x ++ r = write y ++ s → value x = value y ∧ r = s

section Lists

variable {α β : Type} {p : α → Prop} {value : α → β}

/-- Items behind another one, each after a comma and a gap. -/
def followers (gap : List Char) (write : α → List Char) (xs : List α) : List Char :=
  xs.flatMap fun x => ',' :: (gap ++ write x)

lemma intercalate_eq_followers (gap : List Char) (write : α → List Char) (x : α) (xs : List α) :
    (',' :: gap).intercalate ((x :: xs).map write) = write x ++ followers gap write xs := by
  induction xs generalizing x with
  | nil => simp [followers]
  | cons y ys ih =>
    rw [List.map_cons, List.map_cons, List.intercalate_cons_cons, ← List.map_cons, ih y]
    simp [followers]

lemma ends_followers (gap : List Char) (write : α → List Char) (xs : List α) (r : List Char) :
    Ends (followers gap write xs ++ '\n' :: r) := by
  cases xs with
  | nil => exact (ends_cons _ _).mpr (Or.inr (Or.inl rfl))
  | cons x xs => exact (ends_cons _ _).mpr (Or.inl rfl)

/-- A comma or a line end says whether there is one more item. -/
lemma followers_eq {write : α → List Char} {gap r s : List Char} {xs ys : List α}
    (hxs : ∀ x ∈ xs, Telling p write value x) (hys : ∀ y ∈ ys, p y)
    (h : followers gap write xs ++ '\n' :: r = followers gap write ys ++ '\n' :: s) :
    xs.map value = ys.map value ∧ r = s := by
  induction xs generalizing ys with
  | nil =>
    cases ys with
    | nil => exact ⟨rfl, (List.cons.inj h).2⟩
    | cons y ys => exact absurd (List.cons.inj h).1 (by decide)
  | cons x xs ih =>
    cases ys with
    | nil => exact absurd (List.cons.inj h).1 (by decide)
    | cons y ys =>
      obtain ⟨hx, hxs⟩ := List.forall_mem_cons.mp hxs
      obtain ⟨hy, hys⟩ := List.forall_mem_cons.mp hys
      have hitems : write x ++ (followers gap write xs ++ '\n' :: r) =
          write y ++ (followers gap write ys ++ '\n' :: s) := by
        have hcomma : (',' :: gap) ++ (write x ++ (followers gap write xs ++ '\n' :: r)) =
            (',' :: gap) ++ (write y ++ (followers gap write ys ++ '\n' :: s)) := by
          simpa [followers] using h
        exact List.append_cancel_left hcomma
      obtain ⟨hvalue, hrest⟩ := hx y hy _ _ (ends_followers _ _ _ _) (ends_followers _ _ _ _) hitems
      obtain ⟨hvalues, hend⟩ := ih hxs hys hrest
      exact ⟨by rw [List.map_cons, List.map_cons, hvalue, hvalues], hend⟩

variable {indent : Indent} {depth : Nat} {left right : String} {write : α → String}

lemma toList_bracketed_cons (x : α) (xs : List α) (r : List Char) :
    (bracketed indent depth left right ((x :: xs).map write)).toList ++ r =
      left.toList ++ (lineGap indent (depth + 1) ++ ((write x).toList ++
        (followers (lineGap indent (depth + 1)) (fun x => (write x).toList) xs ++
          '\n' :: ((indent.times depth).toList ++ (right.toList ++ r))))) := by
  have hitems := intercalate_eq_followers (lineGap indent (depth + 1))
    (fun x => (write x).toList) x xs
  rw [toList_bracketed _ _ _ _ (by simp), List.map_map, Function.comp_def, hitems]
  simp only [List.append_assoc, lineGap, List.cons_append]

/-- Brackets tell what stands between them. -/
lemma bracketed_eq {close : Char} (hright : right.toList = [close]) (hclose : close ≠ '\n')
    {xs ys : List α} (hxs : ∀ x ∈ xs, Telling p (fun x => (write x).toList) value x)
    (hys : ∀ y ∈ ys, p y) {r s : List Char}
    (h : (bracketed indent depth left right (xs.map write)).toList ++ r =
      (bracketed indent depth left right (ys.map write)).toList ++ s) :
    xs.map value = ys.map value ∧ r = s := by
  have hempty : ∀ r : List Char,
      (bracketed indent depth left right (([] : List α).map write)).toList ++ r =
        left.toList ++ (close :: r) := by
    intro r
    simp [bracketed, String.toList_append, hright]
  cases xs with
  | nil =>
    cases ys with
    | nil =>
      rw [hempty, hempty] at h
      exact ⟨rfl, (List.cons.inj (List.append_cancel_left h)).2⟩
    | cons y ys =>
      rw [hempty, toList_bracketed_cons] at h
      exact absurd (List.cons.inj (List.append_cancel_left h)).1 hclose
  | cons x xs =>
    cases ys with
    | nil =>
      rw [hempty, toList_bracketed_cons] at h
      exact absurd (List.cons.inj (List.append_cancel_left h)).1.symm hclose
    | cons y ys =>
      obtain ⟨hx, hxs⟩ := List.forall_mem_cons.mp hxs
      obtain ⟨hy, hys⟩ := List.forall_mem_cons.mp hys
      rw [toList_bracketed_cons, toList_bracketed_cons] at h
      have hitems := List.append_cancel_left (List.append_cancel_left h)
      obtain ⟨hvalue, hrest⟩ := hx y hy _ _ (ends_followers _ _ _ _) (ends_followers _ _ _ _) hitems
      obtain ⟨hvalues, hend⟩ := followers_eq hxs hys hrest
      refine ⟨by rw [List.map_cons, List.map_cons, hvalue, hvalues], ?_⟩
      exact List.append_cancel_left (List.append_cancel_left hend)

lemma exists_cons_bracketed {opening : Char} (hleft : left.toList = [opening])
    (items : List String) :
    ∃ tail, (bracketed indent depth left right items).toList = opening :: tail := by
  rw [bracketed]
  split_ifs
  · exact ⟨_, by rw [String.toList_append, hleft]; rfl⟩
  · exact ⟨_, by simp only [String.toList_append, hleft, List.append_assoc]; rfl⟩

end Lists

/-- What a value can be taken for at its first character. -/
inductive Shape where
  | null
  | bool (value : Bool)
  | number
  | string
  | array
  | object
  deriving DecidableEq

def shape : Json → Shape
  | .null => .null
  | .bool b => .bool b
  | .number _ => .number
  | .string _ => .string
  | .array _ => .array
  | .object _ => .object

/-- A number of 64 bits is told by its digits. -/
lemma numberText_eq {n m : Number} (hn : n.IsWord) (hm : m.IsWord) {r s : List Char} (hr : Ends r)
    (hs : Ends s) (h : n.text.toList ++ r = m.text.toList ++ s) : n = m ∧ r = s := by
  have hread := congrArg Number.read h
  rw [Number.read_text hn hr.stops, Number.read_text hm hs.stops] at hread
  exact Prod.mk.inj (Option.some.inj hread)

/-- Whether values of a shape hold other values. -/
def Shape.isList : Shape → Bool
  | .array | .object => true
  | _ => false

/-- A value that holds no others is told as soon as its shape is, if numbers are written as their
digits and strings are told. -/
lemma telling_scalar {β : Type} {write : Json → List Char} {value : Json → β} {v : Json}
    (hv : v.IsWhole) (hscalar : (shape v).isList = false)
    (hshape : ∀ w, w.IsWhole → ∀ r s, write v ++ r = write w ++ s → shape v = shape w)
    (hnumber : ∀ n : Number, write (.number n) = n.text.toList)
    (hstring : ∀ t t' r s, write (.string t) ++ r = write (.string t') ++ s → t = t' ∧ r = s) :
    Telling IsWhole write value v := by
  intro w hw r s hr hs h
  have hsame := hshape w hw r s h
  cases v with
  | null =>
    cases w with
    | null => exact ⟨rfl, List.append_cancel_left h⟩
    | _ => cases hsame
  | bool b =>
    cases w with
    | bool b' =>
      obtain rfl : b = b' := Shape.bool.inj hsame
      exact ⟨rfl, List.append_cancel_left h⟩
    | _ => cases hsame
  | number n =>
    cases w with
    | number m =>
      rw [hnumber, hnumber] at h
      obtain ⟨rfl, hrest⟩ := numberText_eq hv hw hr hs h
      exact ⟨rfl, hrest⟩
    | _ => cases hsame
  | string t =>
    cases w with
    | string t' =>
      obtain ⟨rfl, hrest⟩ := hstring t t' r s h
      exact ⟨rfl, hrest⟩
    | _ => cases hsame
  | array items => cases hscalar
  | object members => cases hscalar

namespace LiteralStyle

/-- The shape that a first character announces. -/
def shapeOf (style : LiteralStyle) (c : Char) : Shape :=
  if c = '"' then .string
  else if c = '[' then .array
  else if c = '\x7b' then .object
  else if c = '-' ∨ c.isDigit = true then .number
  else if style.null.toList.head? = some c then .null
  else if style.yes.toList.head? = some c then .bool true
  else .bool false

/-- Styles in which the words for nothing, yes and no begin with letters of their own. -/
structure IsClear (style : LiteralStyle) : Prop where
  null : style.null.toList.head?.map style.shapeOf = some .null
  yes : style.yes.toList.head?.map style.shapeOf = some (.bool true)
  no : style.no.toList.head?.map style.shapeOf = some (.bool false)

theorem isClear_python : python.IsClear := ⟨rfl, rfl, rfl⟩
theorem isClear_ruby : ruby.IsClear := ⟨rfl, rfl, rfl⟩

variable {style : LiteralStyle}

lemma exists_cons_of_head? {s : String} {k : Shape}
    (h : s.toList.head?.map style.shapeOf = some k) :
    ∃ c tail, s.toList = c :: tail ∧ style.shapeOf c = k := by
  obtain ⟨c, hc, hk⟩ := Option.map_eq_some_iff.mp h
  obtain ⟨tail, htail⟩ := List.head?_eq_some_iff.mp hc
  exact ⟨c, tail, htail, hk⟩

lemma shapeOf_number {c : Char} (h : c = '-' ∨ c.isDigit = true) : style.shapeOf c = .number := by
  have hne : c ≠ '"' ∧ c ≠ '[' ∧ c ≠ '\x7b' := by
    refine ⟨?_, ?_, ?_⟩ <;> (rintro rfl; revert h; decide)
  rw [shapeOf, if_neg hne.1, if_neg hne.2.1, if_neg hne.2.2, if_pos h]

lemma exists_cons_write (hclear : style.IsClear) {v : Json} (hv : v.IsWhole) (depth : Nat) :
    ∃ c tail, (write style depth v).toList = c :: tail ∧ style.shapeOf c = shape v := by
  cases v with
  | null => exact exists_cons_of_head? hclear.null
  | bool b =>
    cases b with
    | true => exact exists_cons_of_head? hclear.yes
    | false => exact exists_cons_of_head? hclear.no
  | number n =>
    obtain ⟨c, tail, htext, hc⟩ := exists_number_text hv
    exact ⟨c, tail, htext, shapeOf_number hc⟩
  | string s => exact ⟨'"', _, toList_quoted s, rfl⟩
  | array items =>
    obtain ⟨tail, htail⟩ := exists_cons_bracketed (rfl : "[".toList = ['[']) _
    exact ⟨'[', tail, htail, rfl⟩
  | object members =>
    obtain ⟨tail, htail⟩ := exists_cons_bracketed (rfl : "\x7b".toList = ['\x7b']) _
    exact ⟨'\x7b', tail, htail, rfl⟩

lemma shape_eq (hclear : style.IsClear) {v w : Json} (hv : v.IsWhole) (hw : w.IsWhole) {depth : Nat}
    {r s : List Char}
    (h : (write style depth v).toList ++ r = (write style depth w).toList ++ s) :
    shape v = shape w := by
  obtain ⟨c, tail, hc, hshape⟩ := exists_cons_write hclear hv depth
  obtain ⟨c', tail', hc', hshape'⟩ := exists_cons_write hclear hw depth
  rw [hc, hc'] at h
  rw [← hshape, ← hshape', (List.cons.inj h).1]

/-- A word has neither quotes nor colons in it. -/
lemma exists_cons_of_isWord {key : String} (h : Name.isWord key = true) :
    ∃ c cs, key.toList = c :: cs ∧ ∀ d ∈ c :: cs, d ≠ '"' ∧ d ≠ ':' := by
  rw [Name.isWord] at h
  split at h
  · contradiction
  · next c cs hkey =>
    simp only [Bool.and_eq_true, Bool.or_eq_true, decide_eq_true_eq, List.all_eq_true] at h
    refine ⟨c, cs, hkey, List.forall_mem_cons.mpr ⟨⟨?_, ?_⟩, fun d hd => ⟨?_, ?_⟩⟩⟩
    · rintro rfl
      exact absurd h.1 (by decide)
    · rintro rfl
      exact absurd h.1 (by decide)
    · rintro rfl
      exact absurd (h.2 '"' hd) (by decide)
    · rintro rfl
      exact absurd (h.2 ':' hd) (by decide)

lemma word_append_injective {k l : String} (hk : Name.isWord k = true) (hl : Name.isWord l = true)
    {r s : List Char} (h : k.toList ++ ':' :: r = l.toList ++ ':' :: s) : k = l ∧ r = s := by
  have htake : ∀ {k : String} (r : List Char), Name.isWord k = true →
      (k.toList ++ ':' :: r).takeWhile (· ≠ ':') = k.toList := by
    intro k r hk
    obtain ⟨c, cs, hkey, hplain⟩ := exists_cons_of_isWord hk
    have hcolon : ∀ d ∈ c :: cs, decide (d ≠ ':') = true := fun d hd =>
      decide_eq_true (hplain d hd).2
    rw [hkey, List.takeWhile_append_of_pos hcolon]
    simp
  have hwords := congrArg (List.takeWhile (· ≠ ':')) h
  rw [htake r hk, htake s hl] at hwords
  rw [hwords] at h
  exact ⟨String.toList_inj.mp hwords, (List.cons.inj (List.append_cancel_left h)).2⟩

/-- Quoted or not, a key is told by its text up to the value. -/
lemma key_append_injective (style : LiteralStyle) {k l : String} {r s : List Char}
    (h : (style.key k).toList ++ r = (style.key l).toList ++ s) : k = l ∧ r = s := by
  have hseparator : ": ".toList = [':', ' '] := rfl
  simp only [key] at h
  split_ifs at h with hk hl hl
  · simp only [String.toList_append, List.append_assoc, hseparator, List.cons_append,
      List.nil_append] at h
    obtain ⟨hkey, hrest⟩ := word_append_injective hk.2 hl.2 h
    exact ⟨hkey, (List.cons.inj hrest).2⟩
  · obtain ⟨c, cs, hkey, hplain⟩ := exists_cons_of_isWord hk.2
    simp only [String.toList_append, hkey, toList_quoted, List.cons_append] at h
    exact absurd (List.cons.inj h).1 (hplain c List.mem_cons_self).1
  · obtain ⟨c, cs, hkey, hplain⟩ := exists_cons_of_isWord hl.2
    simp only [String.toList_append, hkey, toList_quoted, List.cons_append] at h
    exact absurd (List.cons.inj h).1.symm (hplain c List.mem_cons_self).1
  · simp only [String.toList_append, List.append_assoc] at h
    obtain ⟨hkey, hrest⟩ := quoted_append_injective h
    exact ⟨hkey, List.append_cancel_left hrest⟩

lemma telling_member {depth : Nat} {m : String × Json}
    (h : Telling IsWhole (fun v => (write style depth v).toList) id m.2) :
    Telling (fun m => m.2.IsWhole) (fun m => (writeMember style depth m).toList) id m := by
  intro m' hm' r s hr hs heq
  simp only [writeMember, String.toList_append, List.append_assoc] at heq
  obtain ⟨hkey, hrest⟩ := key_append_injective style heq
  obtain ⟨hvalue, hend⟩ := h m'.2 hm' r s hr hs hrest
  exact ⟨Prod.ext hkey hvalue, hend⟩

/-- In a clear style every value of whole numbers is told by its literal, at any depth. -/
theorem telling_write (hclear : style.IsClear) {v : Json} (hv : v.IsWhole) (depth : Nat) :
    Telling IsWhole (fun v => (write style depth v).toList) id v := by
  induction v generalizing depth with
  | array items ih =>
    intro w hw r s hr hs h
    have hshape := shape_eq hclear hv hw h
    have hitems := ((all_array _ _).mp hv).2
    cases w with
    | array items' =>
      simp only [write, writeItems_eq_map] at h
      obtain ⟨hvalues, hrest⟩ := bracketed_eq rfl (by decide)
        (fun item hi => ih item hi (hitems item hi) (depth + 1)) ((all_array _ _).mp hw).2 h
      rw [List.map_id, List.map_id] at hvalues
      exact ⟨congrArg Json.array hvalues, hrest⟩
    | _ => cases hshape
  | object members ih =>
    intro w hw r s hr hs h
    have hshape := shape_eq hclear hv hw h
    have hmembers := ((all_object _ _).mp hv).2
    cases w with
    | object members' =>
      simp only [write, writeMembers_eq_map] at h
      obtain ⟨hvalues, hrest⟩ := bracketed_eq rfl (by decide)
        (fun m hm => telling_member (ih m hm (hmembers m hm) (depth + 1)))
        ((all_object _ _).mp hw).2 h
      rw [List.map_id, List.map_id] at hvalues
      exact ⟨congrArg Json.object hvalues, hrest⟩
    | _ => cases hshape
  | _ =>
    exact telling_scalar hv rfl (fun _ hw _ _ h => shape_eq hclear hv hw h) (fun _ => rfl)
      fun _ _ _ _ h => quoted_append_injective h

/-- In a clear style no two values of whole numbers have the same literal. -/
theorem write_injective (hclear : style.IsClear) {v w : Json} (hv : v.IsWhole) (hw : w.IsWhole)
    {depth : Nat} (h : write style depth v = write style depth w) : v = w :=
  (telling_write hclear hv depth w hw [] [] ends_nil ends_nil (congrArg (·.toList ++ []) h)).1

end LiteralStyle

end SampleTypes.Target
