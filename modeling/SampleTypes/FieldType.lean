import SampleTypes.Json.Number
import SampleTypes.Name
import SampleTypes.Word

/-! The type of a field, as one sample value shows it. -/
namespace SampleTypes

inductive FieldType where
  /-- Nothing is known: a null, or what an empty array holds. -/
  | any
  | bool
  | int
  | float
  | string
  /-- Values of one type, that of the first of them. -/
  | list (element : FieldType)
  /-- A type with a definition of its own. -/
  | record (name : String)
  deriving DecidableEq, Repr

/-- How the types of nested objects are named. -/
inductive NameScope where
  /-- After the type around them and their key, where all types share one space of names. -/
  | qualified
  /-- After their key alone. -/
  | bare
  deriving DecidableEq, Repr

namespace NameScope

/-- The name of the type of the object under `key` in the type `enclosing`. -/
def recordName (scope : NameScope) (enclosing key : String) : String :=
  match scope with
  | qualified => enclosing ++ Name.type key
  | bare => Name.type key

/-- The name of the type of the objects in the array under `key` in the type `enclosing`. -/
def itemName (scope : NameScope) (enclosing key : String) : String :=
  scope.recordName enclosing key ++ "Item"

end NameScope

namespace FieldType

/-- Whole numbers are integers, however they are written, if a float among them fits 63 bits. -/
def ofNumber : Number → FieldType
  | .int _ => int
  | .float x =>
    match (Number.float x).whole? with
    | some n => if FitsSigned n then int else float
    | none => float

/-- The type of a value that is no array or object. -/
def ofScalar : Json → FieldType
  | .bool _ => bool
  | .number n => ofNumber n
  | .string _ => string
  | _ => any

mutual

/-- The type of a value in an array whose objects have the type `name`. -/
def ofItem (name : String) : Json → FieldType
  | .object _ => record name
  | .array items => list (ofItems name items)
  | scalar => ofScalar scalar

/-- The type of the values of such an array: that of the first. -/
def ofItems (name : String) : List Json → FieldType
  | [] => any
  | item :: _ => ofItem name item

end

/-- The type of a value that stands under `key` in the type `enclosing`. -/
def ofMember (scope : NameScope) (enclosing key : String) : Json → FieldType
  | .object _ => record (scope.recordName enclosing key)
  | .array items => list (ofItems (scope.itemName enclosing key) items)
  | scalar => ofScalar scalar

/-- The name of the definition that a type refers to, through lists. -/
def recordName? : FieldType → Option String
  | record name => some name
  | list element => element.recordName?
  | _ => none

def element? : FieldType → Option FieldType
  | list element => some element
  | _ => none

def isList : FieldType → Bool
  | list _ => true
  | _ => false

end FieldType

mutual

/-- The object behind a value: itself, or through the first items of arrays. -/
def Json.sampleObject? : Json → Option Members
  | .object members => some members
  | .array items => firstObject? items
  | _ => none

def Json.firstObject? : List Json → Option Members
  | [] => none
  | item :: _ => item.sampleObject?

end

example : FieldType.ofMember .qualified "Root" "line_items" (.array [.object []]) =
    .list (.record "RootLineItemsItem") := by decide +kernel

end SampleTypes
