import SampleTypes.Layout.Page
import SampleTypes.Proofs.Text.Line

/-! The lines that items put on a page. They depend on the level where the items begin and on
nothing else that is on the page. -/
namespace SampleTypes.Layout

namespace Indent

/-- A line at some level; an empty one is not indented. -/
def indented (indent : Indent) (level : Nat) (text : String) : String :=
  if text.isEmpty then "" else indent.times level ++ text

@[simp] lemma indented_zero (indent : Indent) (text : String) : indent.indented 0 text = text := by
  rw [indented]
  split
  · next h => exact (String.isEmpty_iff.mp h).symm
  · simp [times]

lemma indented_of_ne (indent : Indent) (level : Nat) {text : String} (h : text ≠ "") :
    indent.indented level text = indent.times level ++ text := by
  rw [indented, if_neg (by simpa using h)]

lemma map_indented (indent : Indent) (level : Nat) {ls : List String} (h : ∀ l ∈ ls, l ≠ "") :
    ls.map (indent.indented level) = ls.map (indent.times level ++ ·) :=
  List.map_congr_left fun l hl => indented_of_ne indent level (h l hl)

@[simp] lemma map_indented_zero (indent : Indent) (ls : List String) :
    ls.map (indent.indented 0) = ls := by
  have hid : indent.indented 0 = id := by
    funext l
    exact indented_zero indent l
  rw [hid, List.map_id]

end Indent

namespace Item

mutual

/-- The lines of an item that begins at some level. -/
def flat (indent : Indent) (level : Nat) : Item → List String
  | line text => [indent.indented level text]
  | blank => [""]
  | block header close body =>
    indent.indented level header ::
      (flatAll indent (level + 1) body ++ [indent.indented level close])

def flatAll (indent : Indent) (level : Nat) : List Item → List String
  | [] => []
  | item :: items => flat indent level item ++ flatAll indent level items

end

variable (indent : Indent) (level : Nat)

lemma flatAll_append (a b : List Item) :
    flatAll indent level (a ++ b) = flatAll indent level a ++ flatAll indent level b := by
  induction a with
  | nil => rfl
  | cons item items ih => simp [flatAll, ih]

lemma flatAll_lines (texts : List String) :
    flatAll indent level (lines texts) = texts.map (indent.indented level) := by
  induction texts with
  | nil => rfl
  | cons text texts ih => simpa [lines, flatAll, flat] using ih

end Item

namespace Page

/-- Adds finished lines. -/
def add (p : Page) (ls : List String) : Page := { p with lines := p.lines ++ ls.toArray }

@[simp] lemma indent_add (p : Page) (ls : List String) : (p.add ls).indent = p.indent := rfl
@[simp] lemma level_add (p : Page) (ls : List String) : (p.add ls).level = p.level := rfl

@[simp] lemma add_nil (p : Page) : p.add [] = p := by simp [add]

@[simp] lemma add_add (p : Page) (a b : List String) : (p.add a).add b = p.add (a ++ b) := by
  simp [add, Array.append_assoc]

lemma blank_eq (p : Page) : p.blank = p.add [""] := by simp [blank, add]

lemma line_eq (p : Page) (text : String) :
    p.line text = p.add [p.indent.indented p.level text] := by
  rw [line, Indent.indented]
  split
  · exact blank_eq p
  · simp [add]

mutual

/-- An item adds its lines and changes nothing else. -/
theorem put_eq (p : Page) : (item : Item) → p.put item = p.add (item.flat p.indent p.level)
  | .line text => by rw [put, line_eq, Item.flat]
  | .blank => by rw [put, blank_eq, Item.flat]
  | .block header close body => by
    simp only [put, block, line_eq, putAll_eq _ body, Item.flat]
    simp [deeper, shallower, add]

theorem putAll_eq (p : Page) :
    (items : List Item) → p.putAll items = p.add (Item.flatAll p.indent p.level items)
  | [] => by simp [putAll, Item.flatAll]
  | item :: items => by
    rw [putAll, put_eq p item, putAll_eq _ items, add_add, Item.flatAll]
    rfl

end

lemma foldl_line_eq (ls : List String) (p : Page) :
    ls.foldl line p = p.add (ls.map (p.indent.indented p.level)) := by
  induction ls generalizing p with
  | nil => simp
  | cons l ls ih =>
    rw [List.foldl_cons, ih, line_eq, add_add]
    rfl

/-- A pasted text adds its lines. -/
theorem paste_eq (p : Page) (text : String) :
    p.paste text = p.add ((Text.lines text).map (p.indent.indented p.level)) :=
  foldl_line_eq _ p

/-- The text of lines on a page of their own. -/
lemma text_add (indent : Indent) (ls : List String) :
    (({ indent } : Page).add ls).text = "\n".intercalate ls := by
  simp [text, add]

end Page

/-- The text of items is that of their lines. -/
theorem Item.render_eq (indent : Indent) (items : List Item) :
    Item.render indent items = "\n".intercalate (flatAll indent 0 items) := by
  rw [render, Page.putAll_eq, Page.text_add]

end SampleTypes.Layout
