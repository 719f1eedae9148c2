/-! JSON values. Members of an object stand in the order of their first appearance. -/
namespace SampleTypes

/-- A whole number stays one; a number written with a fraction or an exponent, or too large for
64 bits, is a binary64 number. -/
inductive Number where
  | int (value : Int)
  | float (value : Float)
  deriving DecidableEq

inductive Json where
  | null
  | bool (value : Bool)
  | number (value : Number)
  | string (value : String)
  | array (items : List Json)
  | object (members : List (String × Json))
  deriving Inhabited

/-- The members of an object, in order. -/
abbrev Members := List (String × Json)

namespace Members

def keys (ms : Members) : List String := ms.map (·.1)

def get? (ms : Members) (key : String) : Option Json := ms.lookup key

/-- A new key goes to the end; a known one keeps its place and takes the new value. -/
def insert (key : String) (value : Json) : Members → Members
  | [] => [(key, value)]
  | (k, v) :: ms => if k = key then (k, value) :: ms else (k, v) :: insert key value ms

/-- Removes a key; the last member takes its place. -/
def swapErase (ms : Members) (key : String) : Members :=
  match ms.findIdx? (·.1 == key), ms.getLast? with
  | some i, some last => (ms.set i last).dropLast
  | _, _ => ms

@[simp] theorem keys_nil : keys [] = [] := rfl

@[simp] theorem keys_cons (m : String × Json) (ms : Members) : keys (m :: ms) = m.1 :: keys ms :=
  rfl

/-- Inserting adds the key at the end, or changes no key. -/
theorem keys_insert (key : String) (value : Json) (ms : Members) :
    (insert key value ms).keys = if key ∈ ms.keys then ms.keys else ms.keys ++ [key] := by
  induction ms with
  | nil => simp [insert]
  | cons m ms ih =>
    obtain ⟨k, v⟩ := m
    by_cases h : k = key
    · simp [insert, h]
    · by_cases hk : key ∈ keys ms <;> simp_all [insert, eq_comm]

end Members

namespace Json

mutual

/-- The value that a text with repeated keys denotes: a key keeps its first place and takes its
last value. -/
def merged : Json → Json
  | .array items => .array (mergedItems items)
  | .object members => .object (mergedMembers [] members)
  | scalar => scalar

def mergedItems : List Json → List Json
  | [] => []
  | item :: items => merged item :: mergedItems items

def mergedMembers (seen : Members) : Members → Members
  | [] => seen
  | (key, value) :: members => mergedMembers (Members.insert key (merged value) seen) members

end

end Json

example : (Members.swapErase [("a", .null), ("b", .null), ("c", .null)] "a").keys = ["c", "b"] := by
  decide

end SampleTypes
