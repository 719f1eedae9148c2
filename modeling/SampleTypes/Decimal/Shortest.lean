/-! The shortest decimal that reads back as a given binary64 number: of the decimals that round to
it those with the fewest digits, of these the nearest, and of two at one distance the even one. -/
namespace SampleTypes.Decimal

/-- The number `mantissa * 2^exponent`. -/
structure Binary where
  mantissa : Nat
  exponent : Int
  deriving DecidableEq, Repr

/-- The number `digits * 10^exponent`. -/
structure Numeral where
  digits : Nat
  exponent : Int
  deriving DecidableEq, Repr

/-- The place value of the sign bit, `2^63`. -/
def signBit : Nat := 9223372036854775808

/-- The place value of the bit above the fraction, `2^52`, which every normal number has. -/
def leadingBit : Nat := 4503599627370496

/-- Whether the sign bit is set, as it is for negative zero. -/
def isNegative (x : Float) : Bool := signBit ≤ x.toBits.toNat

/-- The magnitude of a finite number. -/
def Binary.ofFloat (x : Float) : Binary :=
  let bits := x.toBits.toNat
  let fraction := bits % leadingBit
  let field := bits / leadingBit % 2048
  if field = 0 then ⟨fraction, -1074⟩ else ⟨leadingBit + fraction, Int.ofNat field - 1075⟩

/-- The whole number that a binary number is, if it is one. -/
def Binary.whole? (b : Binary) : Option Nat :=
  if 0 ≤ b.exponent then some (b.mantissa * Nat.pow 2 b.exponent.toNat)
  else
    let unit := Nat.pow 2 (-b.exponent).toNat
    if b.mantissa % unit = 0 then some (b.mantissa / unit) else none

/-- The place of the first digit of `num / den`: `10^place ≤ num / den < 10^(place+1)`. -/
def leadingPlace (num den : Nat) : Int :=
  if den ≤ num then ((Nat.toDigits 10 (num / den)).length : Int) - 1
  else
    match (List.range 400).find? fun j => den ≤ num * Nat.pow 10 j with
    | some j => -(j : Int)
    | none => 0

/-- What rounds to a number: the fractions from `low / den` to `high / den` around `value / den`,
the two ends among them or not. -/
structure Interval where
  low : Nat
  value : Nat
  high : Nat
  den : Nat
  closed : Bool

/-- Half a unit in the last place to each side, a quarter below a power of two. The ends round to
the even mantissa. -/
def Binary.interval (b : Binary) : Interval :=
  let below := if b.mantissa = leadingBit ∧ b.exponent ≠ -1074 then 1 else 2
  let e := b.exponent - 2
  let (up, den) := if 0 ≤ e then (Nat.pow 2 e.toNat, 1) else (1, Nat.pow 2 (-e).toNat)
  { low := (4 * b.mantissa - below) * up
    value := 4 * b.mantissa * up
    high := (4 * b.mantissa + 2) * up
    den
    closed := b.mantissa % 2 = 0 }

/-- The multiple of `10^place` in the interval that is nearest to the value: one of the value's two
neighbours among these multiples. -/
def Interval.nearest? (i : Interval) (place : Int) : Option Nat :=
  let (shrink, grow) :=
    if 0 ≤ place then (Nat.pow 10 place.toNat, 1) else (1, Nat.pow 10 (-place).toNat)
  let unit := i.den * shrink
  let value := i.value * grow
  let below := value / unit
  let inside (n : Nat) : Bool :=
    if i.closed then i.low * grow ≤ n * unit && n * unit ≤ i.high * grow
    else i.low * grow < n * unit && n * unit < i.high * grow
  match inside below, inside (below + 1) with
  | true, true =>
    let left := value - below * unit
    let right := (below + 1) * unit - value
    if left < right ∨ (left = right ∧ below % 2 = 0) then some below else some (below + 1)
  | true, false => some below
  | false, true => some (below + 1)
  | false, false => none

/-- A decimal without zeros at its end. -/
def Numeral.strip : (fuel : Nat) → Numeral → Numeral
  | 0, d => d
  | fuel + 1, d =>
    if d.digits ≠ 0 ∧ d.digits % 10 = 0 then Numeral.strip fuel ⟨d.digits / 10, d.exponent + 1⟩
    else d

/-- The shortest decimal of a positive binary number. Seventeen digits always suffice. -/
def Binary.shortest (b : Binary) : Numeral :=
  let i := b.interval
  let first := leadingPlace i.value i.den
  let tries := (List.range 17).findSome? fun n =>
    (i.nearest? (first - Int.ofNat n)).map (Numeral.mk · (first - Int.ofNat n))
  (tries.getD ⟨0, 0⟩).strip 20

example : (Binary.mk 1 (-1074)).shortest = ⟨5, -324⟩ := by decide +kernel
example : (Binary.mk leadingBit (-53)).shortest = ⟨5, -1⟩ := by decide +kernel

end SampleTypes.Decimal
