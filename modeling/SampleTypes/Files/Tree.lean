import SampleTypes.Files.Path

/-! File trees as values, and the file operations that programs are written with: the same program
runs on a tree, where its effects can be reasoned about, and on a machine's own files. -/
namespace SampleTypes.Files

inductive Content where
  | text (s : String)
  /-- Bytes that encode no text. -/
  | binary (bytes : List UInt8)
  deriving DecidableEq, Repr

def Content.text? : Content → Option String
  | text s => some s
  | binary _ => none

/-- What a program needs of the files around it. -/
class FileSystem (m : Type → Type) where
  /-- The text of a file, if there is such a file and it holds one. -/
  readText : (path : String) → m (Option String)
  isFile : (path : String) → m Bool
  /-- Makes the directories above a file and writes it, a new one or over an old one. Tells whether
  that succeeded. -/
  writeText : (path text : String) → m Bool

inductive Node where
  | file (content : Content)
  | directory
  deriving DecidableEq, Repr

/-- Files and directories by their steps from the root. The working directory and those above it
are always there. -/
structure Tree where
  workingDirectory : List String
  nodes : List (List String × Node) := []
  deriving DecidableEq, Repr

namespace Tree

def get? (t : Tree) (steps : List String) : Option Node :=
  if steps.isPrefixOf t.workingDirectory then some .directory else t.nodes.lookup steps

def isDirectory (t : Tree) (steps : List String) : Bool := t.get? steps = some .directory

/-- Puts a node in the place of what stands there, or adds it. -/
def set (t : Tree) (steps : List String) (node : Node) : Tree :=
  { t with nodes := (steps, node) :: t.nodes.filter (·.1 ≠ steps) }

/-- A node stands where it was put, unless that is the working directory or above it. -/
theorem get?_set_self {t : Tree} {steps : List String} (node : Node)
    (h : steps.isPrefixOf t.workingDirectory = false) :
    (t.set steps node).get? steps = some node := by
  simp [get?, set, h]

theorem lookup_filter_ne {a b : List String} (h : a ≠ b) (nodes : List (List String × Node)) :
    (nodes.filter (·.1 ≠ b)).lookup a = nodes.lookup a := by
  induction nodes with
  | nil => rfl
  | cons entry nodes ih =>
    obtain ⟨key, node⟩ := entry
    by_cases hb : key = b
    · have ha : (a == b) = false := by simp [h]
      simpa [List.lookup_cons, hb, ha] using ih
    · simp [List.lookup_cons, hb, ← ih]

/-- Putting a node changes no other place. -/
theorem get?_set_of_ne {t : Tree} {a b : List String} (node : Node) (h : a ≠ b) :
    (t.set b node).get? a = t.get? a := by
  have hb : (a == b) = false := by simp [h]
  simp only [get?, set, List.lookup_cons, hb, lookup_filter_ne h]

/-- A step that a file or directory can have for its name. -/
def isName (step : String) : Bool := step.utf8ByteSize ≤ 255 && !step.toList.contains '\x00'

def step (directory : List String) (step : String) : List String :=
  if step = ".." then directory.dropLast else directory ++ [step]

/-- Where steps lead from a place. All but the last place on the way must be directories. -/
def walk (t : Tree) (place : List String) : List String → Option (List String)
  | [] => some place
  | s :: steps => if t.isDirectory place && isName s then t.walk (step place s) steps else none

/-- Where the steps of a path begin. -/
def start (t : Tree) (path : String) : List String :=
  if Path.isAbsolute path then [] else t.workingDirectory

def locate? (t : Tree) (path : String) : Option (List String) :=
  if Path.isUsable path then t.walk (t.start path) (Path.steps path) else none

/-- What a file holds. -/
def read? (t : Tree) (path : String) : Option Content :=
  match (t.locate? path).bind t.get? with
  | some (.file content) => if Path.isForDirectory path then none else some content
  | _ => none

/-- Makes the missing directories along some steps, and tells whether all are directories now. -/
def makeDirectories (t : Tree) (place : List String) : List String → Tree × Bool
  | [] => (t, true)
  | s :: steps =>
    match t.get? (step place s) with
    | some .directory => t.makeDirectories (step place s) steps
    | some (.file _) => (t, false)
    | none =>
      if isName s then (t.set (step place s) .directory).makeDirectories (step place s) steps
      else (t, false)

/-- Writes a file, but not in the place of a directory. -/
def writeFile (t : Tree) (path : String) (content : Content) : Tree × Bool :=
  match t.locate? path with
  | none => (t, false)
  | some place =>
    if Path.isForDirectory path || t.isDirectory place then (t, false)
    else (t.set place (.file content), true)

/-- Makes the directories above a file and writes it. -/
def write (t : Tree) (path : String) (content : Content) : Tree × Bool :=
  if Path.isUsable path then
    match t.makeDirectories (t.start path) (Path.steps path).dropLast with
    | (t, false) => (t, false)
    | (t, true) => t.writeFile path content
  else (t, false)

/-- Removes a file, if there is one. -/
def remove (t : Tree) (path : String) : Tree × Bool :=
  match t.read? path, t.locate? path with
  | some _, some place => ({ t with nodes := t.nodes.filter (·.1 ≠ place) }, true)
  | _, _ => (t, false)

/-- The files below the working directory, by their paths from there. -/
def files (t : Tree) : List (String × Content) :=
  t.nodes.filterMap fun (steps, node) =>
    match node with
    | .file content =>
      if t.workingDirectory.isPrefixOf steps then
        some ("/".intercalate (steps.drop t.workingDirectory.length), content)
      else none
    | .directory => none

end Tree

instance : FileSystem (StateM Tree) where
  readText path := do return ((← get).read? path).bind Content.text?
  isFile path := do return ((← get).read? path).isSome
  writeText path text := do
    let (t, done) := (← get).write path (.text text)
    set t
    return done

end SampleTypes.Files
