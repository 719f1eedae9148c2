import SampleTypes.Json.Number
import SampleTypes.Json.Quoted

/-! Reading JSON text. Every step reads from the beginning of a text and returns what follows. -/
namespace SampleTypes.Json

def skipBlank (cs : List Char) : List Char :=
  cs.dropWhile fun c => c = ' ' || c = '\t' || c = '\n' || c = '\r'

/-- One or more items with commas between them, up to the closing character. Each item takes at
least one character, so the length of the text is fuel enough. -/
def readItems {α : Type} (item : List Char → Option (α × List Char)) (close : Char) :
    (fuel : Nat) → List Char → Option (List α × List Char)
  | 0, _ => none
  | fuel + 1, cs =>
    match item (skipBlank cs) with
    | none => none
    | some (x, rest) =>
      match skipBlank rest with
      | [] => none
      | c :: rest =>
        if c = ',' then
          (readItems item close fuel rest).map fun (xs, rest) => (x :: xs, rest)
        else if c = close then some ([x], rest)
        else none

/-- Items up to the closing character, or none at all. -/
def readList {α : Type} (item : List Char → Option (α × List Char)) (close : Char)
    (cs : List Char) : Option (List α × List Char) :=
  match skipBlank cs with
  | [] => none
  | c :: rest => if c = close then some ([], rest) else readItems item close cs.length (c :: rest)

/-- A key, a colon and a value. -/
def readMember (value : List Char → Option (Json × List Char)) :
    List Char → Option ((String × Json) × List Char)
  | '"' :: cs =>
    match readQuoted cs with
    | none => none
    | some (key, rest) =>
      match skipBlank rest with
      | ':' :: rest => (value (skipBlank rest)).map fun (v, rest) => ((.ofList key, v), rest)
      | _ => none
  | _ => none

def readScalar : List Char → Option (Json × List Char)
  | 'n' :: 'u' :: 'l' :: 'l' :: rest => some (.null, rest)
  | 't' :: 'r' :: 'u' :: 'e' :: rest => some (.bool true, rest)
  | 'f' :: 'a' :: 'l' :: 's' :: 'e' :: rest => some (.bool false, rest)
  | '"' :: rest => (readQuoted rest).map fun (s, rest) => (.string (.ofList s), rest)
  | cs => (Number.read cs).map fun (n, rest) => (.number n, rest)

/-- A value with at most `depth` arrays and objects around its innermost part. -/
def readValue : (depth : Nat) → List Char → Option (Json × List Char)
  | 0, cs => readScalar cs
  | depth + 1, '[' :: cs =>
    (readList (readValue depth) ']' cs).map fun (items, rest) => (.array items, rest)
  | depth + 1, '\x7b' :: cs =>
    (readList (readMember (readValue depth)) '\x7d' cs).map fun (ms, rest) => (.object ms, rest)
  | _ + 1, cs => readScalar cs

/-- How many arrays and objects may stand in each other. -/
def maxDepth : Nat := 127

/-- The value that a text spells out, with every member it writes. -/
def read? (s : String) : Option Json :=
  match readValue maxDepth (skipBlank s.toList) with
  | none => none
  | some (value, rest) => if (skipBlank rest).isEmpty then some value else none

/-- The value that a text denotes. -/
def parse? (s : String) : Option Json := (read? s).map merged

example : ((parse? " \x7b\"a\": [1, -2], \"a\" :null\x7d ").map fun
    | .object ms => Members.keys ms
    | _ => []) = some ["a"] := by decide +kernel

end SampleTypes.Json
