/-!
Finite binary64 numbers in exact integer arithmetic, and rounding of fractions to the nearest of
them.
-/

namespace ShapeRules

/-- The number `mantissa * 2 ^ exponent` with a sign. The mantissa has 53 bits, or fewer at the
least exponent. -/
structure Binary64 where
  negative : Bool
  mantissa : Nat
  exponent : Int
  deriving DecidableEq, Repr

namespace Binary64

/-- The exponent of the least positive number. -/
def leastExponent : Int := -1074

/-- The exponent of the greatest number. -/
def greatestExponent : Int := 971

def zero (negative : Bool) : Binary64 := ⟨negative, 0, leastExponent⟩

def negate (x : Binary64) : Binary64 := { x with negative := !x.negative }

/-- Zeros are equal whatever their sign. -/
def same (x y : Binary64) : Bool :=
  x = y || (x.mantissa = 0 && y.mantissa = 0)

/-- The integer nearest to `num / den`, the even one of two. -/
def nearest (num den : Nat) : Nat :=
  let quotient := num / den
  let twice := 2 * (num % den)
  if twice < den ∨ (twice = den ∧ quotient % 2 = 0) then quotient else quotient + 1

/-- The fraction `num / den * 2 ^ shift` as a numerator and a denominator. -/
def shifted (num den : Nat) (shift : Int) : Nat × Nat :=
  match shift with
  | .ofNat n => (num * Nat.pow 2 n, den)
  | .negSucc n => (num, den * Nat.pow 2 (n + 1))

/-- The exponent at which the quotient `num / den` has 53 bits, or the least one. -/
def exponentOf (num den : Nat) : Int :=
  let guess := max leastExponent ((num.log2 : Int) - den.log2 - 53)
  let (n, d) := shifted num den (-guess)
  if n / d < Nat.pow 2 53 then guess else guess + 1

/-- The nonnegative number nearest to `num / den`, or nothing if that is beyond the greatest. -/
def ofRatio? (num den : Nat) : Option Binary64 :=
  let exponent := exponentOf num den
  let (n, d) := shifted num den (-exponent)
  let mantissa := nearest n d
  let (mantissa, exponent) :=
    if mantissa = Nat.pow 2 53 then (Nat.pow 2 52, exponent + 1) else (mantissa, exponent)
  if greatestExponent < exponent then none else some ⟨false, mantissa, exponent⟩

/-- The nonnegative number nearest to `coefficient * 10 ^ exponent`. Far outside of the range of
doubles the powers need not be computed. -/
def ofDecimal? (coefficient : Nat) (exponent : Int) : Option Binary64 :=
  if coefficient = 0 then some (zero false)
  else
    match exponent with
    | .ofNat n => if 309 ≤ n then none else ofRatio? (coefficient * Nat.pow 10 n) 1
    | .negSucc n =>
      if coefficient.log2 + 1073 ≤ 3 * n then some (zero false)
      else ofRatio? coefficient (Nat.pow 10 (n + 1))

/-- The rounded product of two nonnegative numbers. -/
def mul? (x y : Binary64) : Option Binary64 :=
  let (num, den) := shifted (x.mantissa * y.mantissa) 1 (x.exponent + y.exponent)
  ofRatio? num den

/-- The rounded quotient of two nonnegative numbers. -/
def div? (x y : Binary64) : Option Binary64 :=
  let (num, den) := shifted x.mantissa y.mantissa (x.exponent - y.exponent)
  ofRatio? num den

end Binary64

end ShapeRules
