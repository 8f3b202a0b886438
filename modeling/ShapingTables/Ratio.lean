/-! A share is printed from its nearest binary fraction with 53 significant bits, the
precision in which such shares are customarily computed: the percentage is that fraction
times one hundred, rounded to 53 bits once more, and its decimals are those of the exact
binary value. Every rounding takes ties to the even neighbour. The arithmetic is exact, in
natural numbers. -/
namespace ShapingTables

/-- The natural number nearest to `numerator / denominator`, the even one of two. -/
def roundDiv (numerator denominator : Nat) : Nat :=
  let quotient := numerator / denominator
  let excess := 2 * (numerator % denominator)
  if denominator < excess ∨ (excess = denominator ∧ quotient % 2 = 1) then quotient + 1
  else quotient

/-- The number `significand / 2 ^ scale`. -/
structure BinaryFraction where
  significand : Nat
  scale : Nat
  deriving DecidableEq, Repr

namespace BinaryFraction

/-- The least scale at which a positive quotient below `2 ^ 53` has 53 significant bits. -/
def scaleOf (numerator denominator : Nat) : Nat :=
  let guess := 52 + denominator.log2 - numerator.log2
  if numerator * Nat.pow 2 guess < denominator * Nat.pow 2 52 then guess + 1 else guess

/-- The nearest fraction with 53 significant bits to a quotient below `2 ^ 53`. -/
def nearest (numerator denominator : Nat) : BinaryFraction :=
  if numerator = 0 then ⟨0, 0⟩
  else
    let scale := scaleOf numerator denominator
    ⟨roundDiv (numerator * Nat.pow 2 scale) denominator, scale⟩

def times (fraction : BinaryFraction) (factor : Nat) : BinaryFraction :=
  nearest (fraction.significand * factor) (Nat.pow 2 fraction.scale)

/-- Decimal notation with a fixed number of places behind the point. -/
def fixed (places : Nat) (fraction : BinaryFraction) : String :=
  let one := Nat.pow 10 places
  let scaled := roundDiv (fraction.significand * one) (Nat.pow 2 fraction.scale)
  toString (scaled / one) ++ "." ++
    String.ofList ((toString (scaled % one)).toList.leftpad places '0')

end BinaryFraction

end ShapingTables
