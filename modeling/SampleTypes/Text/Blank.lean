/-! White space, and the ways to cut a text into pieces. -/
namespace SampleTypes.Text

/-- The characters that count as white space. -/
def isBlank (c : Char) : Bool :=
  let n := c.toNat
  (9 ≤ n && n ≤ 13) || n == 0x20 || n == 0x85 || n == 0xA0 || n == 0x1680 ||
    (0x2000 ≤ n && n ≤ 0x200A) || n == 0x2028 || n == 0x2029 || n == 0x202F ||
    n == 0x205F || n == 0x3000

/-- Nothing but white space, or nothing at all. -/
def isBlankText (s : String) : Bool := s.toList.all isBlank

/-- A list without its longest beginning and end of blanks. -/
def trimChars (cs : List Char) : List Char :=
  ((cs.dropWhile isBlank).reverse.dropWhile isBlank).reverse

def trim (s : String) : String := .ofList (trimChars s.toList)

/-- The pieces between the characters that satisfy `p`: one more than there are of these. -/
def splitBy (p : Char → Bool) : List Char → List (List Char)
  | [] => [[]]
  | c :: cs =>
    if p c then [] :: splitBy p cs
    else match splitBy p cs with
      | [] => [[c]]
      | piece :: pieces => (c :: piece) :: pieces

/-- The maximal runs of characters that are not blank. -/
def wordChars (cs : List Char) : List (List Char) := (splitBy isBlank cs).filter (!·.isEmpty)

/-- The words of a text on one line, one space between two. -/
def oneLine (cs : List Char) : List Char := [' '].intercalate (wordChars cs)

/-- A line without the carriage return it ends in. -/
def dropReturn (line : List Char) : List Char :=
  if line.getLast? = some '\r' then line.dropLast else line

/-- Lines end at a line feed, with a carriage return before it or not. What follows the last line
feed is a line of its own, its carriage return kept, unless it is empty. -/
def lineChars (cs : List Char) : List (List Char) :=
  let pieces := splitBy (· == '\n') cs
  pieces.dropLast.map dropReturn ++ (pieces.getLast?.toList.filter (!·.isEmpty))

def lines (s : String) : List String := (lineChars s.toList).map .ofList

theorem splitBy_ne_nil (p : Char → Bool) (cs : List Char) : splitBy p cs ≠ [] := by
  cases cs with
  | nil => simp [splitBy]
  | cons c cs =>
    unfold splitBy
    split
    · simp
    · split <;> simp

/-- A text without a cutting character is one piece. -/
theorem splitBy_of_all_not {p : Char → Bool} {cs : List Char} (h : ∀ c ∈ cs, p c = false) :
    splitBy p cs = [cs] := by
  induction cs with
  | nil => rfl
  | cons c cs ih =>
    simp only [List.mem_cons, forall_eq_or_imp] at h
    simp [splitBy, h.1, ih h.2]

example : lines "a\r\nb\r\n\nc\r" = ["a", "b", "", "c\r"] ∧ lines "\n" = [""] := by decide
example : oneLine "\t\x7b\n \"id\": 1\n\x7d".toList = "\x7b \"id\": 1 \x7d".toList := by decide

end SampleTypes.Text
