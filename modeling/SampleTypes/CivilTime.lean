/-! Points in time as dates of the Gregorian calendar, and their minutes in a time zone. -/
namespace SampleTypes.CivilTime

structure Date where
  year : Int
  month : Int
  day : Int
  deriving DecidableEq, Repr

/-- The date that lies `days` after the first of January 1970. Counted in years from March, a leap
day is the last day of its year, and 400 years have 146097 days. -/
def Date.ofDays (days : Int) : Date :=
  let shifted := days + 719468
  let cycle := shifted / 146097
  let dayOfCycle := shifted % 146097
  let yearOfCycle :=
    (dayOfCycle - dayOfCycle / 1460 + dayOfCycle / 36524 - dayOfCycle / 146096) / 365
  let dayOfYear := dayOfCycle - (365 * yearOfCycle + yearOfCycle / 4 - yearOfCycle / 100)
  let monthFromMarch := (5 * dayOfYear + 2) / 153
  let month := if monthFromMarch < 10 then monthFromMarch + 3 else monthFromMarch - 9
  { year := yearOfCycle + cycle * 400 + if month ≤ 2 then 1 else 0
    month
    day := dayOfYear - (153 * monthFromMarch + 2) / 5 + 1 }

/-- Digits with zeros before them up to a width. -/
def padded (width n : Nat) : String :=
  let digits := Nat.toDigits 10 n
  .ofList (List.replicate (width - digits.length) '0' ++ digits)

/-- Four digits, and a sign for years before zero or after 9999. -/
def yearText (year : Int) : String :=
  (if year < 0 then "-" else if year > 9999 then "+" else "") ++ padded 4 year.natAbs

/-- How many seconds the time of a zone is ahead of UTC, at a time in milliseconds since 1970. -/
structure Zone where
  ahead : (milliseconds : Int) → Int

def Zone.utc : Zone := ⟨fun _ => 0⟩

/-- The minute of a zone that a time in milliseconds since 1970 lies in, if the calendar reaches
that far. It reaches the same times in every zone. -/
def minuteText? (milliseconds : Int) (zone : Zone := .utc) : Option String :=
  let year := (Date.ofDays (milliseconds / 86400000)).year
  let here := milliseconds + zone.ahead milliseconds * 1000
  let date := Date.ofDays (here / 86400000)
  let minute := here % 86400000 / 60000
  if -262143 ≤ year ∧ year ≤ 262142 then
    some (yearText date.year ++ "-" ++ padded 2 date.month.toNat ++ "-" ++
      padded 2 date.day.toNat ++ " " ++ padded 2 (minute / 60).toNat ++ ":" ++
      padded 2 (minute % 60).toNat)
  else none

example : minuteText? 951868799999 = some "2000-02-29 23:59" ∧
    minuteText? (-60001) = some "1969-12-31 23:58" ∧
    minuteText? 951868799999 ⟨fun _ => 3600⟩ = some "2000-03-01 00:59" := by decide +kernel

end SampleTypes.CivilTime
