import SampleTypes.Command.Invocation
import SampleTypes.Command.Outcome
import SampleTypes.Generate
import SampleTypes.History.Row

/-! What is listed: the languages, and the entries of a history. -/
namespace SampleTypes.Command

/-- Lines, each with a line end. -/
def printed (lines : List String) : String := String.join (lines.map (· ++ "\n"))

/-- A text with spaces after it up to a width. -/
def padRight (width : Nat) (s : String) : String :=
  s ++ .ofList (List.replicate (width - s.length) ' ')

/-- The width of the longest identifier. -/
def idWidth : Nat := (Language.all.map (·.id.length)).foldl max 0

/-- The width of a column of file endings. -/
def extensionWidth : Nat := 7

def languageRow (l : Language) : String :=
  "  " ++ padRight idWidth l.id ++ "  " ++ padRight extensionWidth l.extension ++ "  " ++
    if l.hasTypes then "types" else "literal"

def languageListing : List String := "Languages" :: "=========" :: Language.all.map languageRow

/-- The first rows of a history, numbered from one, and how many more entries there are. -/
def historyListing (zone : CivilTime.Zone) (path : String) (limit : Option Nat)
    (entries : List History.Entry) : List String :=
  let shown := match limit with
    | some n => entries.take n
    | none => entries
  if shown.isEmpty then ["No history yet"]
  else
    let rows := shown.mapIdx fun i e =>
      "  " ++ toString (i + 1) ++ ". " ++ (History.Row.ofEntry e zone).text
    let more := entries.length - shown.length
    ("History: " ++ path) :: "" :: rows ++
      if more = 0 then [] else ["", "… " ++ toString more ++ " more"]

variable {m : Type → Type} [Monad m] [Files.FileSystem m]

/-- The newest input of a feature, if there is one, or else a listing of the entries. -/
def showHistory (zone : CivilTime.Zone) (store : History.Store) (request : HistoryRequest) :
    m String := do
  if request.last then
    let input ← store.last (request.feature.getD generateFeature)
    return if input = "" then "" else input ++ "\n"
  else
    let entries ← match request.feature with
      | some feature => store.entriesOf feature
      | none => store.entries
    return printed (historyListing zone store.path request.limit entries)

end SampleTypes.Command
