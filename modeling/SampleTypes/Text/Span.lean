/-! Places in a text, counted in bytes of its encoding. -/
namespace SampleTypes.Text

structure Span where
  offset : Nat
  length : Nat
  deriving DecidableEq, Repr

/-- Where `needle` first begins in a text whose first byte stands at `offset`. -/
def offsetOf? (needle : List Char) (offset : Nat) : List Char → Option Nat
  | [] => if needle.isEmpty then some offset else none
  | c :: cs =>
    if needle.isPrefixOf (c :: cs) then some offset
    else offsetOf? needle (offset + c.utf8Size) cs

/-- The first occurrence of `needle` in `text`. -/
def Span.find? (text needle : String) : Option Span :=
  (offsetOf? needle.toList 0 text.toList).map (⟨·, needle.utf8ByteSize⟩)

example : Span.find? "éé root" "root" = some ⟨5, 4⟩ ∧ Span.find? "abc" "" = some ⟨0, 0⟩ := by
  decide

end SampleTypes.Text
