import SampleTypes.Files.Tree
import SampleTypes.History.Entry

/-! A history in a file, which every operation reads anew. -/
namespace SampleTypes.History

open Files

structure Store where
  path : String
  /-- How many entries are kept. -/
  limit : Nat := 50
  deriving DecidableEq, Repr

inductive SaveResult where
  | saved
  /-- A blank input is not remembered. -/
  | ignored
  | failed
  deriving DecidableEq, Repr

namespace Store

variable {m : Type → Type} [Monad m] [FileSystem m]

/-- All entries, the newest first. A file that cannot be read keeps none. -/
def entries (s : Store) : m (List Entry) := do
  return ((← FileSystem.readText s.path).map decode).getD []

/-- Remembers an input as the newest one of its feature. -/
def save (s : Store) (now : Int) (feature input : String) (extra : Members) : m SaveResult := do
  if Text.isBlankText input then return .ignored
  let entry := Entry.create now feature input extra
  let kept := record s.limit entry (← s.entries)
  if ← FileSystem.writeText s.path (encode kept) then return .saved else return .failed

def last (s : Store) (feature : String) : m String := do
  return lastInput feature (← s.entries)

def entriesOf (s : Store) (feature : String) : m (List Entry) := do
  return ofFeature feature (← s.entries)

omit [Monad m] [FileSystem m] in
/-- What is said when the file cannot be written. -/
def failureMessage (s : Store) : String := "failed to write history file '" ++ s.path ++ "'"

end Store

end SampleTypes.History
