import SampleTypes.Text.Blank

/-! Code as indented lines. A page takes lines one by one, in blocks, or from a finished text, and
its own text joins them with line feeds, without one at the end. -/
namespace SampleTypes.Layout

inductive Indent where
  | spaces (width : Nat)
  | tab
  deriving DecidableEq, Repr

namespace Indent

/-- One level of indentation. Spaces come in twos, fours and eights; any other width is four. -/
def unit : Indent → String
  | spaces width => if width = 2 then "  " else if width = 8 then "        " else "    "
  | tab => "\t"

/-- The indentation of a line at some level. -/
def times (i : Indent) (level : Nat) : String := String.join (List.replicate level i.unit)

def standard : Indent := spaces 4

end Indent

/-- What a block-structured piece of code is made of. -/
inductive Item where
  | line (text : String)
  | blank
  /-- A header and a closing line around items one level deeper. -/
  | block (header close : String) (body : List Item)

structure Page where
  indent : Indent
  level : Nat := 0
  lines : Array String := #[]
  deriving DecidableEq, Repr

namespace Page

def blank (p : Page) : Page := { p with lines := p.lines.push "" }

/-- Adds a line at the current level; an empty one is not indented. -/
def line (p : Page) (text : String) : Page :=
  if text.isEmpty then p.blank
  else { p with lines := p.lines.push (p.indent.times p.level ++ text) }

/-- Adds every line of a finished text at the current level. -/
def paste (p : Page) (text : String) : Page := (Text.lines text).foldl line p

def deeper (p : Page) : Page := { p with level := p.level + 1 }

/-- One level back, but never left of the margin. -/
def shallower (p : Page) : Page := { p with level := p.level - 1 }

/-- A header, what `body` adds one level deeper, and a closing line. -/
def block (p : Page) (header close : String) (body : Page → Page) : Page :=
  (body (p.line header).deeper).shallower.line close

mutual

def put (p : Page) : Item → Page
  | .line text => p.line text
  | .blank => p.blank
  | .block header close body => p.block header close fun p => p.putAll body

def putAll (p : Page) : List Item → Page
  | [] => p
  | item :: items => (p.put item).putAll items

end

def isEmpty (p : Page) : Bool := p.lines.isEmpty

def text (p : Page) : String := "\n".intercalate p.lines.toList

@[simp] theorem level_line (p : Page) (text : String) : (p.line text).level = p.level := by
  unfold line; split <;> rfl

mutual

/-- A block ends at the level where it began. -/
theorem level_put (p : Page) : (item : Item) → (p.put item).level = p.level
  | .line text => by simp [put]
  | .blank => by simp [put, blank]
  | .block header close body => by
    simp [put, block, shallower, level_putAll _ body, deeper]

theorem level_putAll (p : Page) : (items : List Item) → (p.putAll items).level = p.level
  | [] => by simp [putAll]
  | item :: items => by simp [putAll, level_putAll _ items, level_put p item]

end

end Page

/-- The text of items on a page of their own. -/
def Item.render (indent : Indent) (items : List Item) : String :=
  ({ indent : Page }.putAll items).text

/-- A line for each text. -/
def Item.lines (texts : List String) : List Item := texts.map .line

example : Item.render .standard [.block "a [" "]" [.line "b", .blank, .line ""]] =
    "a [\n    b\n\n\n]" := by decide +kernel
example : ({ indent := .standard : Page }.deeper.paste "a\n    b\n\nc").text =
    "    a\n        b\n\n    c" := by decide +kernel

end SampleTypes.Layout
