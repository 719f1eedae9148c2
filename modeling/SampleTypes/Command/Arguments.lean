/-! The arguments of a command: switches, by their letters or their names, with values or without,
and operands. -/
namespace SampleTypes.Command

inductive Switch where
  | settings
  | verbose
  | language
  | root
  | keepKeys
  | file
  | directory
  | noHistory
  | feature
  | last
  | limit
  deriving DecidableEq, Repr

namespace Switch

/-- The name that stands after two hyphens. -/
def name : Switch → String
  | settings => "config"
  | verbose => "verbose"
  | language => "language"
  | root => "root"
  | keepKeys => "no-camel-case"
  | file => "output"
  | directory => "out-dir"
  | noHistory => "no-history"
  | feature => "module"
  | last => "last"
  | limit => "limit"

/-- The letter that stands after one hyphen. -/
def letter? : Switch → Option Char
  | settings => some 'c'
  | verbose => some 'v'
  | language => some 'l'
  | file => some 'o'
  | feature => some 'm'
  | limit => some 'n'
  | _ => none

def takesValue : Switch → Bool
  | verbose | keepKeys | noHistory | last => false
  | _ => true

/-- Whether a switch can be given more than once. -/
def repeats (s : Switch) : Bool := s = verbose

end Switch

/-- A switch as it was given; the value of one that takes none is empty. -/
abbrev Given := Switch × String

/-- What one argument says. -/
inductive Word where
  | operand
  | given (switches : List Given)
  /-- The value of `pending` is the next argument. -/
  | awaiting (switches : List Given) (pending : Switch)
  deriving DecidableEq, Repr

namespace Word

def add (g : Given) : Word → Word
  | operand => operand
  | given gs => given (g :: gs)
  | awaiting gs pending => awaiting (g :: gs) pending

/-- A name, alone or with an equals sign and a value. -/
def ofName? (known : List Switch) (cs : List Char) : Option Word :=
  let (name, rest) := cs.span (· ≠ '=')
  match known.find? (·.name.toList = name), rest with
  | none, _ => none
  | some s, [] => some (if s.takesValue then awaiting [] s else given [(s, "")])
  | some s, _ :: value => if s.takesValue then some (given [(s, .ofList value)]) else none

/-- Letters of switches. What follows the letter of one that takes a value is that value, with an
equals sign before it or not. -/
def ofLetters? (known : List Switch) : List Char → Option Word
  | [] => some (given [])
  | c :: cs =>
    match known.find? (·.letter? = some c) with
    | none => none
    | some s =>
      if s.takesValue then
        match cs with
        | [] => some (awaiting [] s)
        | '=' :: value => some (given [(s, .ofList value)])
        | value => some (given [(s, .ofList value)])
      else (ofLetters? known cs).map (add (s, ""))

/-- Whether an argument cannot be an operand or a value of its own. A single hyphen can. -/
def isHyphenated (argument : String) : Bool :=
  match argument.toList with
  | '-' :: _ :: _ => true
  | _ => false

def ofArgument? (known : List Switch) (argument : String) : Option Word :=
  match argument.toList with
  | '-' :: '-' :: name => ofName? known name
  | '-' :: c :: letters => ofLetters? known (c :: letters)
  | _ => some operand

end Word

structure Arguments where
  switches : List Given := []
  operands : List String := []
  deriving DecidableEq, Repr

namespace Arguments

/-- Switches before others; one that does not repeat must not be among these again. -/
def give : (switches : List Given) → Arguments → Option Arguments
  | [], a => some a
  | g :: gs, a =>
    match give gs a with
    | none => none
    | some a =>
      if !g.1.repeats ∧ a.switches.any (·.1 = g.1) then none
      else some { a with switches := g :: a.switches }

/-- The switches and operands of some arguments. Two hyphens end the switches. Unless switches and
operands are mixed, all arguments from the first operand on are operands. -/
def read (known : List Switch) (mixed : Bool) : List String → Option Arguments
  | [] => some {}
  | argument :: rest =>
    if argument = "--" then some { operands := if mixed then rest else argument :: rest }
    else
      match Word.ofArgument? known argument with
      | none => none
      | some .operand =>
        if mixed then
          (read known mixed rest).map fun a => { a with operands := argument :: a.operands }
        else some { operands := argument :: rest }
      | some (.given gs) => (read known mixed rest).bind (give gs)
      | some (.awaiting gs pending) =>
        match rest with
        | [] => none
        | value :: rest =>
          if Word.isHyphenated value then none
          else (read known mixed rest).bind (give (gs ++ [(pending, value)]))

/-- The value of a switch, if that is given. -/
def value? (a : Arguments) (s : Switch) : Option String := a.switches.lookup s

def has (a : Arguments) (s : Switch) : Bool := a.switches.any (·.1 = s)

end Arguments

example : Arguments.read [.verbose, .language, .file] true
      ["-vvl=Go", "in", "--output=x", "--", "-v"] =
    some ⟨[(.verbose, ""), (.verbose, ""), (.language, "Go"), (.file, "x")], ["in", "-v"]⟩ := by
  decide +kernel

end SampleTypes.Command
