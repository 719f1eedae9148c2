import SampleTypes.Json.Reader
import SampleTypes.Json.Writer
import SampleTypes.Text.Blank
import SampleTypes.Word

/-! Remembered inputs, and the text that a list of them is kept as. -/
namespace SampleTypes.History

/-- One remembered input. -/
structure Entry where
  /-- The feature that the input was given to. -/
  feature : String
  input : String
  /-- Milliseconds since 1970. -/
  time : Int
  /-- Further attributes. -/
  extra : Members

namespace Entry

/-- The keys of an entry's own fields, under which no attribute is kept. -/
def ownKeys : List String := ["module", "input", "time"]

/-- An entry with the attributes of a caller, less those under the keys of its own fields. -/
def create (time : Int) (feature input : String) (extra : Members) : Entry :=
  { feature, input, time, extra := ownKeys.foldl Members.swapErase extra }

def get? (e : Entry) (key : String) : Option Json := e.extra.get? key

/-- Whether this is the entry of an input to a feature. -/
def isFor (e : Entry) (feature input : String) : Bool := e.feature = feature && e.input = input

/-- The fields of an entry come before its attributes. -/
def members (e : Entry) : Members :=
  [("module", .string e.feature), ("input", .string e.input), ("time", .number (.int e.time))] ++
    e.extra

def toJson (e : Entry) : Json := .object e.members

/-- The value of a key that is written exactly once. -/
def only? (members : Members) (key : String) : Option Json :=
  match members.filter (·.1 = key) with
  | [(_, value)] => some value
  | _ => none

/-- The entry that an object spells out. Each own field stands there once and has its type, a time
of 64 bits; of a repeated attribute the last value counts. -/
def ofJson? : Json → Option Entry
  | .object members =>
    match only? members "module", only? members "input", only? members "time" with
    | some (.string feature), some (.string input), some (.number (.int time)) =>
      if FitsSigned time then
        some { feature, input, time
               extra := Json.mergedMembers [] (members.filter fun (key, _) => key ∉ ownKeys) }
      else none
    | _, _, _ => none
  | _ => none

def parse? (text : String) : Option Entry := (Json.read? text).bind ofJson?

end Entry

/-- The entries that a text keeps. A text that is blank or damaged keeps none. -/
def decode (text : String) : List Entry :=
  if Text.isBlankText text then []
  else match Json.read? text with
    | some (.array items) => (items.mapM Entry.ofJson?).getD []
    | _ => []

def encode (entries : List Entry) : String := (Json.array (entries.map Entry.toJson)).text

/-- Puts an entry before all others, in place of an older one for the same input, and drops the
oldest entries beyond the limit. -/
def record (limit : Nat) (entry : Entry) (entries : List Entry) : List Entry :=
  (entry :: entries.filter fun e => !e.isFor entry.feature entry.input).take limit

/-- The entries of one feature, in order. -/
def ofFeature (feature : String) (entries : List Entry) : List Entry :=
  entries.filter (·.feature = feature)

/-- The newest input to a feature, or the empty text. -/
def lastInput (feature : String) (entries : List Entry) : String :=
  ((entries.find? (·.feature = feature)).map (·.input)).getD ""

end SampleTypes.History
