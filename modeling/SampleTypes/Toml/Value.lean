/-! TOML values, and tables in the making: what a header, a dotted key or a longer header has begun
can be continued by some of these only. -/
namespace SampleTypes.Toml

inductive Value where
  | string (value : String)
  /-- A whole number. It has no value if it is written with what is no digit. -/
  | integer (value : Option Int)
  /-- A number with a fraction, an exponent or a name. Its form is checked, its size not kept. -/
  | float
  /-- A date, a time of day or both. -/
  | moment
  | boolean (value : Bool)
  | array (items : List Value)
  | table (entries : List (String × Value))
  deriving Inhabited

namespace Value

def string? : Value → Option String
  | string s => some s
  | _ => none

def boolean? : Value → Option Bool
  | boolean b => some b
  | _ => none

def negate : Value → Value
  | integer value => integer (value.map (-·))
  | value => value

end Value

/-- How a table came to be. -/
inductive Origin where
  /-- As a step in a longer header. -/
  | implied
  | header
  | dottedKey
  deriving DecidableEq, Repr

/-- What stands under a key while a document is read. -/
inductive Node where
  | value (value : Value)
  | table (origin : Origin) (entries : List (String × Node))
  /-- An array of tables, one for each double header, with the one that is still open apart. -/
  | rows (closed : List (List (String × Node))) (current : List (String × Node))

abbrev Table := List (String × Node)

namespace Table

/-- Changes what stands under a key, or adds it at the end; nothing if `f` gives nothing. -/
def alter (key : String) (f : Option Node → Option Node) : Table → Option Table
  | [] => (f none).map fun node => [(key, node)]
  | (k, node) :: table =>
    if k = key then (f (some node)).map fun node => (k, node) :: table
    else (alter key f table).map ((k, node) :: ·)

/-- Changes the table at a path of headers. Missing tables on the way are implied, and an array of
tables stands for its last one. -/
def within (f : Table → Option Table) : (path : List String) → Table → Option Table
  | [], table => f table
  | key :: path, table =>
    alter key (fun
      | none => (within f path []).map (.table .implied)
      | some (.table origin entries) => (within f path entries).map (.table origin)
      | some (.rows closed current) => (within f path current).map (.rows closed)
      | some (.value _) => none) table

/-- What a header does to its last key: a table has one header only. -/
def openTable (key : String) : Table → Option Table :=
  alter key fun
    | none => some (.table .header [])
    | some (.table .implied entries) => some (.table .header entries)
    | some _ => none

/-- What a double header does to its last key: it adds a table to an array. -/
def openRow (key : String) : Table → Option Table :=
  alter key fun
    | none => some (.rows [] [])
    | some (.rows closed current) => some (.rows (closed ++ [current]) [])
    | some _ => none

/-- Puts a value under a dotted key. Only tables made by dotted keys are continued by one, and no
key is given two values. -/
def assign (value : Value) : (path : List String) → Table → Option Table
  | [], _ => none
  | [key], table =>
    alter key (fun
      | none => some (.value value)
      | some _ => none) table
  | key :: path, table =>
    alter key (fun
      | none => (assign value path []).map (.table .dottedKey)
      | some (.table .dottedKey entries) => (assign value path entries).map (.table .dottedKey)
      | some _ => none) table

end Table

mutual

/-- The value of a node once nothing can be added to it. -/
def Node.close : Node → Value
  | .value value => value
  | .table _ entries => .table (closeEntries entries)
  | .rows closed current => .array (closeRows closed ++ [.table (closeEntries current)])

def closeEntries : List (String × Node) → List (String × Value)
  | [] => []
  | (key, node) :: entries => (key, node.close) :: closeEntries entries

def closeRows : List (List (String × Node)) → List Value
  | [] => []
  | entries :: rows => .table (closeEntries entries) :: closeRows rows

end

end SampleTypes.Toml
