import SampleTypes.Text.Blank

/-! Paths as text: steps between slashes, from the root or from the working directory. -/
namespace SampleTypes.Files.Path

def pieces (path : String) : List String :=
  (Text.splitBy (· = '/') path.toList).map .ofList

/-- The steps of a path. Empty pieces and single dots lead nowhere. -/
def steps (path : String) : List String :=
  (pieces path).filter fun piece => piece ≠ "" ∧ piece ≠ "."

def isAbsolute (path : String) : Bool := path.toList.head? = some '/'

/-- Whether a path can lead anywhere: it is not empty and not too long. -/
def isUsable (path : String) : Bool := path ≠ "" && path.utf8ByteSize < 4096

/-- Whether a path ends in a slash or a dot step, and so can stand for a directory only. -/
def isForDirectory (path : String) : Bool :=
  match (pieces path).getLast? with
  | some piece => piece = "" || piece = "."
  | none => false

/-- The path of `name` seen from `directory`; an absolute one stays as it is. -/
def join (directory name : String) : String :=
  if isAbsolute name ∨ directory = "" then name
  else if directory.toList.getLast? = some '/' then directory ++ name
  else directory ++ "/" ++ name

/-- The path without its last step. -/
def parent (path : String) : String :=
  (if isAbsolute path then "/" else "") ++ "/".intercalate (steps path).dropLast

example : steps "./a//b/" = ["a", "b"] ∧ join "m" "a/b.ts" = "m/a/b.ts" := by decide +kernel

end SampleTypes.Files.Path
