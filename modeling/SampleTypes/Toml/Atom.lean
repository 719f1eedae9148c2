import SampleTypes.Toml.Value

/-! Words without quotes: truth values, numbers, dates and times. How a word begins settles what it
is. A whole number that is one by its beginning stays one even if it goes on with what is no digit;
it only has no value then. -/
namespace SampleTypes.Toml

def digitValue (c : Char) : Nat :=
  if c.isDigit then c.toNat - 48 else if c.isLower then c.toNat - 87 else c.toNat - 55

def isHexDigit (c : Char) : Bool :=
  c.isDigit || ('a' ≤ c && c ≤ 'f') || ('A' ≤ c && c ≤ 'F')

def isBelow (limit : Nat) (c : Char) : Bool := c.isDigit && digitValue c < limit

def numeral (base : Nat) (digits : List Char) : Nat :=
  digits.foldl (fun n c => base * n + digitValue c) 0

/-- The number that digits stand for, underscores aside. -/
def valueOf? (base : Nat) (isDigit : Char → Bool) (cs : List Char) : Option Int :=
  let digits := cs.filter (· ≠ '_')
  if digits.isEmpty ∨ !digits.all isDigit then none else some (numeral base digits)

/-- Whether every underscore has a digit on each side; `before` tells whether one stands before the
text. -/
def underscoresFit (isDigit : Char → Bool) : (before : Bool) → List Char → Bool
  | _, [] => true
  | before, c :: cs =>
    if c = '_' then before && cs.head?.any isDigit && underscoresFit isDigit false cs
    else underscoresFit isDigit (isDigit c) cs

/-- Digits and underscores, at least one digit: what follows them. A zero before other digits is
refused where `zeros` does not allow it. -/
def afterDigits (zeros : Bool) (cs : List Char) : Option (List Char) :=
  let (group, rest) := cs.span fun c => c.isDigit || c = '_'
  let count := group.countP Char.isDigit
  if count = 0 ∨ (!zeros ∧ 1 < count ∧ group.head? = some '0') then none else some rest

/-- A text without the sign it may begin with. -/
def dropSign : List Char → List Char
  | '+' :: cs => cs
  | '-' :: cs => cs
  | cs => cs

def isExponentMark (c : Char) : Bool := c = 'e' || c = 'E'

/-- A letter `e` and an exponent, or nothing. -/
def isExponent : List Char → Bool
  | [] => true
  | c :: cs => isExponentMark c && afterDigits true (dropSign cs) = some []

/-- Digits, then a point and digits or none, then an exponent or none. -/
def isFloat (cs : List Char) : Bool :=
  match afterDigits false cs with
  | none => false
  | some ('.' :: cs) =>
    match afterDigits true cs with
    | none => false
    | some rest => isExponent rest
  | some rest => isExponent rest

/-- Whether a number has no zero before its other characters. -/
def isWithoutZeros (cs : List Char) : Bool := cs = ['0'] || cs.head? ≠ some '0'

/-- A number in base ten, less its sign. One with a point or an exponent has to be a float. Any
other is a whole number if it consists of digits or goes on after them with an underscore, which can
stand by hexadecimal digits too, and behind the sign. -/
def number? (signed : Bool) (cs : List Char) : Option Value :=
  let rest := cs.dropWhile Char.isDigit
  let isWhole := (rest.isEmpty && !cs.isEmpty) || rest.head? = some '_'
  if rest.contains ' ' then none
  else if rest.head? = some '-' ∨ rest.head? = some ':' then none
  else if rest.any fun c => c = '.' || isExponentMark c then
    if isFloat cs ∧ underscoresFit Char.isDigit signed cs then some .float else none
  else if isWhole ∧ isWithoutZeros cs ∧ underscoresFit isHexDigit signed cs then
    some (.integer (valueOf? 10 Char.isDigit cs))
  else none

/-- A whole number in another base than ten, less the mark of its base. There may be no digits. -/
def basedNumber? (base : Nat) (isDigit : Char → Bool) (cs : List Char) : Option Value :=
  if cs.all (fun c => isDigit c || c = '_') ∧ underscoresFit isDigit false cs then
    some (.integer (valueOf? base isDigit cs))
  else none

/-- A numeral of exactly so many digits, and what follows. -/
def fixedDigits (count : Nat) (cs : List Char) : Option (Nat × List Char) :=
  let digits := cs.take count
  if digits.length = count ∧ digits.all Char.isDigit then some (numeral 10 digits, cs.drop count)
  else none

def daysInMonth (year month : Nat) : Nat :=
  if month = 2 then
    if year % 4 = 0 ∧ (year % 100 ≠ 0 ∨ year % 400 = 0) then 29 else 28
  else if month = 4 ∨ month = 6 ∨ month = 9 ∨ month = 11 then 30
  else 31

/-- A day of the calendar at the beginning of a text: what follows it. -/
def afterDate (cs : List Char) : Option (List Char) :=
  match fixedDigits 4 cs with
  | some (year, '-' :: cs) =>
    match fixedDigits 2 cs with
    | some (month, '-' :: cs) =>
      match fixedDigits 2 cs with
      | some (day, cs) =>
        if 1 ≤ month ∧ month ≤ 12 ∧ 1 ≤ day ∧ day ≤ daysInMonth year month then some cs else none
      | none => none
    | _ => none
  | _ => none

/-- Hours and minutes at the beginning of a text: what follows them. -/
def afterMinute (cs : List Char) : Option (List Char) :=
  match fixedDigits 2 cs with
  | some (hour, ':' :: cs) =>
    match fixedDigits 2 cs with
    | some (minute, cs) => if hour ≤ 23 ∧ minute ≤ 59 then some cs else none
    | none => none
  | _ => none

/-- A time of day at the beginning of a text, to the minute, the second or a part of one: what
follows it. -/
def afterTime (cs : List Char) : Option (List Char) :=
  match afterMinute cs with
  | some (':' :: cs) =>
    match fixedDigits 2 cs with
    | some (second, rest) =>
      if second ≤ 60 then
        match rest with
        | '.' :: cs =>
          let (digits, rest) := cs.span Char.isDigit
          if digits.isEmpty then none else some rest
        | rest => some rest
      else none
    | none => none
  | rest => rest

/-- Nothing, `Z`, or a distance from it in hours and minutes. -/
def isOffset : List Char → Bool
  | [] => true
  | [c] => c = 'Z' || c = 'z'
  | c :: cs => (c = '+' || c = '-') && afterMinute cs = some []

/-- A date, a time, or a date, a separator and a time with its offset. -/
def isMoment (cs : List Char) : Bool :=
  match afterDate cs with
  | some [] => true
  | some (c :: cs) =>
    (c = 'T' || c = 't' || c = ' ') &&
      match afterTime cs with
      | some rest => isOffset rest
      | none => false
  | none => afterTime cs = some []

/-- What a word stands for. -/
def atom? (word : List Char) : Option Value :=
  if word = "true".toList then some (.boolean true)
  else if word = "false".toList then some (.boolean false)
  else if dropSign word = "inf".toList ∨ dropSign word = "nan".toList then some .float
  else match word with
    | '+' :: cs => number? true cs
    | '-' :: cs => (number? true cs).map Value.negate
    | '0' :: 'x' :: cs => basedNumber? 16 isHexDigit cs
    | '0' :: 'o' :: cs => basedNumber? 8 (isBelow 8) cs
    | '0' :: 'b' :: cs => basedNumber? 2 (isBelow 2) cs
    | cs => if isMoment cs then some .moment else number? false cs

def isSpace (c : Char) : Bool := c = ' ' || c = '\t'

/-- The characters at which a word ends. -/
def endsWord (c : Char) : Bool := isSpace c || "=,[]\x7b\x7d#\r\n".toList.contains c

/-- Whether a word goes on behind blanks. A quote there begins a string of its own. -/
def goesOn (cs : List Char) : Bool :=
  (cs.dropWhile isSpace).head?.any fun c => !endsWord c && c ≠ '"' && c ≠ '\''

/-- The word at the beginning of a text and what follows. Blanks inside a word belong to it. -/
def readWord : List Char → List Char × List Char
  | [] => ([], [])
  | c :: cs =>
    if endsWord c && !(isSpace c && goesOn cs) then ([], c :: cs)
    else
      let (word, rest) := readWord cs
      (c :: word, rest)

def readAtom (cs : List Char) : Option (Value × List Char) :=
  let (word, rest) := readWord cs
  (atom? word).map (·, rest)

example : valueOf? 16 isHexDigit "1_F".toList = some 31 ∧ isWithoutZeros "010".toList = false ∧
    underscoresFit Char.isDigit false "1__0".toList = false ∧ isFloat "1.e5".toList = false := by
  decide
example : readWord "1979-05-27 07:32 # x".toList = ("1979-05-27 07:32".toList, " # x".toList) := by
  decide
example : isMoment "1979-05-27 07:32:00.5-07:00".toList = true ∧
    isMoment "2023-02-29".toList = false := by decide

end SampleTypes.Toml
