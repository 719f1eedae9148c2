import SampleTypes.FieldType

/-! Schemas: the fields of an object with their types, and the schemas of the objects below it. -/
namespace SampleTypes

structure Field where
  key : String
  type : FieldType
  deriving DecidableEq, Repr

/-- The definition of one type: its name and its fields, in the order of their keys. -/
structure Schema where
  name : String
  fields : List Field
  deriving DecidableEq, Repr

namespace Schema

/-- The fields that an object shows for a type of this name. -/
def ofMembers (scope : NameScope) (name : String) (members : Members) : Schema :=
  ⟨name, members.map fun (key, value) => ⟨key, FieldType.ofMember scope name key value⟩⟩

/-- The definition that the type of a member refers to: its name, and the object it describes. -/
def nested? (scope : NameScope) (enclosing : String) (member : String × Json) :
    Option (String × Members) :=
  match (FieldType.ofMember scope enclosing member.1 member.2).recordName?,
    member.2.sampleObject? with
  | some name, some object => some (name, object)
  | _, _ => none

end Schema

/-- A schema over the outlines of the objects that its fields refer to, in field order. -/
inductive Outline where
  | node (schema : Schema) (nested : List Outline)

namespace Outline

def schema : Outline → Schema
  | node schema _ => schema

def nested : Outline → List Outline
  | node _ nested => nested

mutual

/-- The outline of the object behind a value, under a given name; none for other values. -/
def ofValue (scope : NameScope) (name : String) : Json → List Outline
  | .object members => [node (.ofMembers scope name members) (ofMembers scope name members)]
  | .array items => ofFirst scope name items
  | _ => []

def ofFirst (scope : NameScope) (name : String) : List Json → List Outline
  | [] => []
  | item :: _ => ofValue scope name item

/-- The outlines that the members of an object refer to. -/
def ofMembers (scope : NameScope) (enclosing : String) : List (String × Json) → List Outline
  | [] => []
  | (key, value) :: members =>
    (match (FieldType.ofMember scope enclosing key value).recordName? with
      | some name => ofValue scope name value
      | none => []) ++ ofMembers scope enclosing members

end

/-- The outline of an object under a given name. -/
def ofObject (scope : NameScope) (name : String) (members : Members) : Outline :=
  node (.ofMembers scope name members) (ofMembers scope name members)

mutual

/-- All schemas, each before those below it. -/
def schemas : Outline → List Schema
  | node schema nested => schema :: schemasOf nested

def schemasOf : List Outline → List Schema
  | [] => []
  | outline :: outlines => outline.schemas ++ schemasOf outlines

end

mutual

/-- Whether some field at or below this outline satisfies `p`. -/
def anyField (p : Field → Bool) : Outline → Bool
  | node schema nested => schema.fields.any p || anyFieldOf p nested

def anyFieldOf (p : Field → Bool) : List Outline → Bool
  | [] => false
  | outline :: outlines => outline.anyField p || anyFieldOf p outlines

end

end Outline

end SampleTypes
