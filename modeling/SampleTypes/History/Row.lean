import SampleTypes.CivilTime
import SampleTypes.History.Entry

/-! An entry as one row of a listing. -/
namespace SampleTypes.History

/-- The longest preview, in characters. -/
def previewLength : Nat := 60

/-- An input on one line. A longer one than fits is cut and ends in an ellipsis. -/
def preview (input : String) : String :=
  let line := Text.oneLine input.toList
  .ofList (if line.length ≤ previewLength then line else line.take (previewLength - 1) ++ ['…'])

structure Row where
  feature : String
  time : String
  /-- The language that was generated, if the entry names one. -/
  language : Option String
  preview : String
  deriving DecidableEq, Repr

namespace Row

/-- The time is shown as a minute of the zone. One beyond the calendar is shown as its number of
milliseconds. -/
def ofEntry (e : Entry) (zone : CivilTime.Zone := .utc) : Row where
  feature := e.feature
  time := (CivilTime.minuteText? e.time zone).getD (toString e.time)
  language :=
    match e.get? "language" with
    | some (.string language) => some language
    | _ => none
  preview := History.preview e.input

def text (row : Row) : String :=
  row.time ++ " " ++ row.feature ++
    (match row.language with
      | some language => " [" ++ language ++ "]"
      | none => "") ++ "  " ++ row.preview

end Row

end SampleTypes.History
