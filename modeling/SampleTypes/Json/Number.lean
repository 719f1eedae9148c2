import SampleTypes.Decimal.Shortest
import SampleTypes.Json.Basic
import SampleTypes.Word

/-! How numbers are written and read. -/
namespace SampleTypes.Number

open Decimal

/-- Digits with a point: positional from `0.00001` to below `10^16` and always with a digit after
the point, otherwise one digit before the point and an exponent with its sign. -/
def decimalText (d : Numeral) : String :=
  let digits := Nat.toDigits 10 d.digits
  let place := d.exponent + Int.ofNat digits.length - 1
  if 0 ≤ place ∧ place ≤ 15 then
    let whole := place.toNat + 1
    let padded := digits ++ List.replicate (whole - digits.length) '0'
    let fraction := padded.drop whole
    .ofList (padded.take whole) ++ "." ++ (if fraction.isEmpty then "0" else .ofList fraction)
  else if -5 ≤ place ∧ place < 0 then
    "0." ++ .ofList (List.replicate ((-place).toNat - 1) '0' ++ digits)
  else
    let rest := digits.drop 1
    .ofList (digits.take 1) ++ (if rest.isEmpty then "" else "." ++ .ofList rest) ++
      "e" ++ (if 0 ≤ place then "+" else "-") ++ toString place.natAbs

/-- The sign is written for negative zero too. -/
def floatText (x : Float) : String :=
  let b := Binary.ofFloat x
  (if isNegative x then "-" else "") ++ (if b.mantissa = 0 then "0.0" else decimalText b.shortest)

def text : Number → String
  | .int n => toString n
  | .float x => floatText x

/-- The whole number that a number equals, if it is one. -/
def whole? : Number → Option Int
  | .int n => some n
  | .float x => (Binary.ofFloat x).whole?.map fun n => if isNegative x then -(n : Int) else n

/-- Takes digits into `n` as long as the result fits 64 bits: the result and the digits left. -/
def absorb (n : Nat) : List Char → Nat × List Char
  | [] => (n, [])
  | c :: cs =>
    let next := 10 * n + (c.toNat - 48)
    if FitsUnsigned next then absorb next cs else (n, c :: cs)

/-- The binary64 number nearest to `10^k`, for `k` up to 308. -/
def tenTo (k : Nat) : Float := Float.ofScientific 1 false k

/-- Divides by `10^-e`, in steps of at most `10^308`. -/
def scaleDown (x : Float) (e : Int) : Float :=
  if e < -308 then if x == 0 then x else scaleDown (x / tenTo 308) (e + 308)
  else x / tenTo (-e).toNat
termination_by (-e).toNat

/-- `n * 10^e` by one rounding for `n` and one for each scaling step; nothing if it is infinite. -/
def scale? (n : Nat) (e : Int) : Option Float :=
  let x := n.toUInt64.toFloat
  if e < 0 then some (scaleDown x e)
  else if e ≤ 308 then
    let y := x * tenTo e.toNat
    if y.isInf then none else some y
  else if x == 0 then some x else none

/-- The binary64 number that digits with a written exponent are read as. The significand takes as
many digits as fit 64 bits; further whole digits count in the exponent, further fraction digits
are dropped. -/
def readFloat? (negative : Bool) (whole fraction : List Char) (exponent : Int) : Option Float :=
  let (n, wholeLeft) := absorb 0 whole
  let (m, fractionLeft) := absorb n fraction
  let taken := fraction.length - fractionLeft.length
  (scale? m (exponent + wholeLeft.length - taken)).map fun x => if negative then -x else x

/-- The digits at the beginning of a text, at least one. -/
def readDigits (cs : List Char) : Option (List Char × List Char) :=
  let (digits, rest) := cs.span Char.isDigit
  if digits.isEmpty then none else some (digits, rest)

/-- A point and digits, if there is a point. -/
def readFraction : List Char → Option (Option (List Char) × List Char)
  | '.' :: cs => (readDigits cs).map fun (digits, rest) => (some digits, rest)
  | cs => some (none, cs)

/-- A letter `e`, a sign or none, and digits, if there is a letter `e`. -/
def readExponent : List Char → Option (Option Int × List Char)
  | [] => some (none, [])
  | c :: cs =>
    if c = 'e' ∨ c = 'E' then
      match cs with
      | '-' :: cs =>
        (readDigits cs).map fun (digits, rest) =>
          (some (-(Nat.ofDigitChars 10 digits 0 : Int)), rest)
      | '+' :: cs =>
        (readDigits cs).map fun (digits, rest) => (some (Nat.ofDigitChars 10 digits 0 : Int), rest)
      | cs =>
        (readDigits cs).map fun (digits, rest) => (some (Nat.ofDigitChars 10 digits 0 : Int), rest)
    else some (none, c :: cs)

/-- The number that a sign and digits denote: a whole number if it fits 64 bits, without a sign up
to `2^64-1` and with one from `-1` to `-2^63`. -/
def ofDigits? (negative : Bool) (digits : List Char) : Option Number :=
  let n := Nat.ofDigitChars 10 digits 0
  if !negative ∧ FitsUnsigned n then some (.int n)
  else if negative ∧ 0 < n ∧ FitsSigned (-(n : Int)) then some (.int (-(n : Int)))
  else (readFloat? negative digits [] 0).map .float

/-- Reads a number from the beginning of a text: the number, and what follows. No number has a plus
sign or a zero before its other whole digits. -/
def read (cs : List Char) : Option (Number × List Char) := do
  let (negative, cs) := match cs with
    | '-' :: rest => (true, rest)
    | _ => (false, cs)
  let (whole, cs) ← readDigits cs
  if whole.head? = some '0' ∧ whole.length ≠ 1 then none
  let (fraction, cs) ← readFraction cs
  let (exponent, cs) ← readExponent cs
  match fraction, exponent with
  | none, none => return (← ofDigits? negative whole, cs)
  | _, _ =>
    let x ← readFloat? negative whole (fraction.getD []) (exponent.getD 0)
    return (.float x, cs)

end SampleTypes.Number
