import SampleTypes.Json.Quoted

/-! TOML strings: between quotes or apostrophes, on one line or, with three of them, on several. -/
namespace SampleTypes.Toml

/-- A character that may stand in a string or comment as it is: no control character but the tab. -/
def isPlain (c : Char) : Bool := c = '\t' || (0x20 ≤ c.toNat && c ≠ '\x7f')

/-- The number that hexadecimal digits stand for. -/
def hex? (digits : List Char) : Option Nat :=
  digits.foldlM (fun n c => (Json.hexValue? c).map (16 * n + ·)) 0

/-- The character with a number, if it is one and no surrogate. -/
def char? (n : Nat) : Option Char := if h : n.isValidChar then some (.ofNatAux n h) else none

/-- The character that an escape of so many hexadecimal digits stands for. -/
def hexChar? (digits : List Char) : Option Char := (hex? digits).bind char?

def shortEscape? (c : Char) : Option Char :=
  if c = '"' ∨ c = '\\' then some c
  else if c = 'b' then some '\x08'
  else if c = 't' then some '\t'
  else if c = 'n' then some '\n'
  else if c = 'f' then some '\x0c'
  else if c = 'r' then some '\r'
  else if c = 'e' then some '\x1b'
  else none

/-- What an escape stands for, read from after its backslash, and what follows. -/
def readEscape : List Char → Option (Char × List Char)
  | 'x' :: a :: b :: cs => (hexChar? [a, b]).map (·, cs)
  | 'u' :: a :: b :: c :: d :: cs => (hexChar? [a, b, c, d]).map (·, cs)
  | 'U' :: a :: b :: c :: d :: e :: f :: g :: h :: cs =>
    (hexChar? [a, b, c, d, e, f, g, h]).map (·, cs)
  | c :: cs => (shortEscape? c).map (·, cs)
  | [] => none

/-- The rest of a text behind the line that ends here, blanks aside, and behind all blank lines
after it; nothing if the line does not end here. -/
def afterLineEnd : (ended : Bool) → List Char → Option (List Char)
  | ended, [] => if ended then some [] else none
  | _, '\r' :: '\n' :: cs => afterLineEnd true cs
  | ended, c :: cs =>
    if c = '\n' then afterLineEnd true cs
    else if c = ' ' ∨ c = '\t' then afterLineEnd ended cs
    else if ended then some (c :: cs) else none

/-- Reads a string on one line up to its closing mark. With `escapes`, a backslash begins one. -/
def readLineString (mark : Char) (escapes : Bool) :
    (fuel : Nat) → List Char → Option (List Char × List Char)
  | 0, _ => none
  | _ + 1, [] => none
  | fuel + 1, c :: cs =>
    if c = mark then some ([], cs)
    else if escapes ∧ c = '\\' then
      match readEscape cs with
      | none => none
      | some (x, rest) =>
        (readLineString mark escapes fuel rest).map fun (s, rest) => (x :: s, rest)
    else if isPlain c then
      (readLineString mark escapes fuel cs).map fun (s, rest) => (c :: s, rest)
    else none

/-- Reads a string on several lines up to three closing marks; up to two more belong to the string.
A backslash at the end of a line hides everything up to the next character that is not blank. -/
def readBlockString (mark : Char) (escapes : Bool) :
    (fuel : Nat) → List Char → Option (List Char × List Char)
  | 0, _ => none
  | _ + 1, [] => none
  | fuel + 1, c :: cs =>
    if c = mark then
      let marks := ((c :: cs).takeWhile (· = mark)).length
      if 3 ≤ marks then
        let inside := min marks 5 - 3
        some (List.replicate inside mark, (c :: cs).drop (inside + 3))
      else (readBlockString mark escapes fuel cs).map fun (s, rest) => (c :: s, rest)
    else if escapes ∧ c = '\\' then
      match afterLineEnd false cs with
      | some rest => readBlockString mark escapes fuel rest
      | none =>
        match readEscape cs with
        | none => none
        | some (x, rest) =>
          (readBlockString mark escapes fuel rest).map fun (s, rest) => (x :: s, rest)
    else if isPlain c ∨ c = '\n' ∨ (c = '\r' ∧ cs.head? = some '\n') then
      (readBlockString mark escapes fuel cs).map fun (s, rest) => (c :: s, rest)
    else none

/-- A text without the line end it may begin with. -/
def dropLineEnd : List Char → List Char
  | '\n' :: cs => cs
  | '\r' :: '\n' :: cs => cs
  | cs => cs

/-- Reads a string on one line from its opening mark on. -/
def readKeyString : List Char → Option (String × List Char)
  | '"' :: cs => (readLineString '"' true (cs.length + 1) cs).map fun (s, rest) => (.ofList s, rest)
  | '\'' :: cs =>
    (readLineString '\'' false (cs.length + 1) cs).map fun (s, rest) => (.ofList s, rest)
  | _ => none

/-- Reads a string of any form from its opening mark on. -/
def readString : List Char → Option (String × List Char)
  | '"' :: '"' :: '"' :: cs =>
    (readBlockString '"' true (cs.length + 1) (dropLineEnd cs)).map fun (s, rest) =>
      (.ofList s, rest)
  | '\'' :: '\'' :: '\'' :: cs =>
    (readBlockString '\'' false (cs.length + 1) (dropLineEnd cs)).map fun (s, rest) =>
      (.ofList s, rest)
  | cs => readKeyString cs

example : readString "\"\"\"\n a\\\n  \"b\"\"\"\"x".toList = some (" a\"b\"", ['x']) := by decide

end SampleTypes.Toml
