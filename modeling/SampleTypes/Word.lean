/-! Whole numbers that fit 64 bits. -/
namespace SampleTypes

/-- Whether a number fits without a sign: it is below `2^64`. -/
abbrev FitsUnsigned (n : Nat) : Prop := n < 18446744073709551616

/-- Whether a number fits with a sign: it is from `-2^63` to below `2^63`. -/
abbrev FitsSigned (n : Int) : Prop := -9223372036854775808 ≤ n ∧ n < 9223372036854775808

end SampleTypes
