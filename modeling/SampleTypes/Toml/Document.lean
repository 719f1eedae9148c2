import SampleTypes.Toml.Atom
import SampleTypes.Toml.Quoted

/-! TOML documents: statements, read one after the other, and the table that they build. -/
namespace SampleTypes.Toml

def skipSpace (cs : List Char) : List Char := cs.dropWhile isSpace

/-- A text behind blanks, line ends and comments. A comment holds no control characters. -/
def skipLines : (inComment : Bool) → List Char → List Char
  | _, [] => []
  | _, '\r' :: '\n' :: cs => skipLines false cs
  | inComment, c :: cs =>
    if c = '\n' then skipLines false cs
    else if inComment then if isPlain c then skipLines true cs else c :: cs
    else if c = ' ' ∨ c = '\t' then skipLines false cs
    else if c = '#' then skipLines true cs
    else c :: cs

/-- A text from where its line ends or a comment begins, blanks aside. -/
def endOfLine (cs : List Char) : Option (List Char) :=
  match skipSpace cs with
  | [] => some []
  | '#' :: cs => some ('#' :: cs)
  | '\n' :: cs => some cs
  | '\r' :: '\n' :: cs => some cs
  | _ => none

/-- How many arrays and tables may stand in each other, and how many parts a key may have. -/
def maxDepth : Nat := 80

def isBareKeyChar (c : Char) : Bool := c.isAlphanum || c = '_' || c = '-'

def readKeyPart (cs : List Char) : Option (String × List Char) :=
  let (word, rest) := cs.span isBareKeyChar
  if word.isEmpty then readKeyString cs else some (.ofList word, rest)

/-- At most so many parts with dots between them, and blanks around the dots. -/
def readKey : (parts : Nat) → List Char → Option (List String × List Char)
  | 0, _ => none
  | parts + 1, cs =>
    match readKeyPart cs with
    | none => none
    | some (part, rest) =>
      match skipSpace rest with
      | '.' :: cs => (readKey parts (skipSpace cs)).map fun (path, rest) => (part :: path, rest)
      | rest => some ([part], rest)

/-- A key, an equals sign and a value, with nothing between them but what `skip` passes over. -/
def readPair (skip : List Char → List Char) (value : List Char → Option (Value × List Char))
    (cs : List Char) : Option ((List String × Value) × List Char) :=
  match readKey maxDepth cs with
  | none => none
  | some (path, rest) =>
    match skip rest with
    | '=' :: rest => (value (skip rest)).map fun (v, rest) => ((path, v), rest)
    | _ => none

/-- Items with commas between them, and one after the last or not, up to the closing character.
Lines may end anywhere between. -/
def readItems {α : Type} (item : List Char → Option (α × List Char)) (close : Char) :
    (fuel : Nat) → List Char → Option (List α × List Char)
  | 0, _ => none
  | fuel + 1, cs =>
    match skipLines false cs with
    | [] => none
    | c :: cs =>
      if c = close then some ([], cs)
      else match item (c :: cs) with
        | none => none
        | some (x, rest) =>
          match skipLines false rest with
          | [] => none
          | c :: cs =>
            if c = ',' then (readItems item close fuel cs).map fun (xs, rest) => (x :: xs, rest)
            else if c = close then some ([x], cs)
            else none

/-- The table of some assignments. -/
def tableOf? (pairs : List (List String × Value)) : Option Table :=
  pairs.foldlM (fun table (path, value) => table.assign value path) []

def readFlat (cs : List Char) : Option (Value × List Char) :=
  if cs.head? = some '"' ∨ cs.head? = some '\'' then
    (readString cs).map fun (s, rest) => (.string s, rest)
  else readAtom cs

/-- A value with at most `depth` arrays and tables around its innermost part. -/
def readValue : (depth : Nat) → List Char → Option (Value × List Char)
  | 0, cs => readFlat cs
  | depth + 1, '[' :: cs =>
    (readItems (readValue depth) ']' (cs.length + 1) cs).map fun (items, rest) =>
      (.array items, rest)
  | depth + 1, '\x7b' :: cs =>
    match readItems (readPair (skipLines false) (readValue depth)) '\x7d' (cs.length + 1) cs with
    | none => none
    | some (pairs, rest) =>
      (tableOf? pairs).map fun entries => (.table (closeEntries entries), rest)
  | _ + 1, cs => readFlat cs

inductive Statement where
  | header (path : List String)
  | rowHeader (path : List String)
  | assign (path : List String) (value : Value)

def readStatement : List Char → Option (Statement × List Char)
  | '[' :: '[' :: cs =>
    match readKey maxDepth (skipSpace cs) with
    | some (path, ']' :: ']' :: rest) => (endOfLine rest).map (.rowHeader path, ·)
    | _ => none
  | '[' :: cs =>
    match readKey maxDepth (skipSpace cs) with
    | some (path, ']' :: rest) => (endOfLine rest).map (.header path, ·)
    | _ => none
  | cs =>
    match readPair skipSpace (readValue maxDepth) cs with
    | some ((path, value), rest) => (endOfLine rest).map (.assign path value, ·)
    | none => none

def readStatements : (fuel : Nat) → List Char → Option (List Statement)
  | 0, _ => none
  | fuel + 1, cs =>
    match skipLines false cs with
    | [] => some []
    | cs =>
      match readStatement cs with
      | none => none
      | some (statement, rest) => (readStatements fuel rest).map (statement :: ·)

/-- A document so far: its table, and the header that assignments stand under. -/
structure Progress where
  root : Table := []
  current : List String := []

namespace Progress

/-- Carries out one statement, if the document allows it. -/
def step (p : Progress) : Statement → Option Progress
  | .header path =>
    match path.getLast? with
    | none => none
    | some key =>
      (p.root.within (Table.openTable key) path.dropLast).map fun root => ⟨root, path⟩
  | .rowHeader path =>
    match path.getLast? with
    | none => none
    | some key => (p.root.within (Table.openRow key) path.dropLast).map fun root => ⟨root, path⟩
  | .assign path value =>
    (p.root.within (Table.assign value path) p.current).map fun root => { p with root }

end Progress

/-- A text without the mark of its byte order. -/
def dropMark : List Char → List Char
  | c :: cs => if c = '\ufeff' then cs else c :: cs
  | [] => []

/-- The top table of a document, by its entries. -/
def parse? (text : String) : Option (List (String × Value)) :=
  let cs := dropMark text.toList
  match readStatements (cs.length + 1) cs with
  | none => none
  | some statements =>
    (statements.foldlM Progress.step {}).map fun p => closeEntries p.root

end SampleTypes.Toml
