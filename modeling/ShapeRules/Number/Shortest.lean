import ShapeRules.Number.Binary64

/-!
The fewest decimal digits that lie closer to a binary64 number than to its neighbours, and the text
made of them.
-/

namespace ShapeRules

namespace Binary64

/-- The number and the bounds of what rounds to it, as multiples of a quarter of its last place. -/
private structure Interval where
  low : Nat
  middle : Nat
  high : Nat
  /-- The bounds themselves round to the number. -/
  isClosed : Bool

private def interval (x : Binary64) : Interval :=
  let step := if x.mantissa = Nat.pow 2 52 ∧ leastExponent < x.exponent then 1 else 2
  ⟨4 * x.mantissa - step, 4 * x.mantissa, 4 * x.mantissa + 2, x.mantissa % 2 = 0⟩

/-- The fraction `num / den` is below `10 ^ power`. -/
private def belowPower (num den : Nat) : Int → Bool
  | .ofNat n => num < den * Nat.pow 10 n
  | .negSucc n => num * Nat.pow 10 (n + 1) < den

/-- The greatest power of ten that is not above `num / den`, searched from `start` downwards. -/
private def powerOf (num den : Nat) (start : Int) : Nat → Int
  | 0 => start
  | fuel + 1 => if belowPower num den start then powerOf num den (start - 1) fuel else start

/-- The number `coefficient * 10 ^ exponent`. -/
structure Decimal where
  coefficient : Nat
  exponent : Int
  deriving DecidableEq, Repr

/-- The point of the decimal grid of the given exponent that rounds to the number, if there is one;
of two the nearer. -/
private def gridPoint? (bounds : Interval) (exponent : Int) (grid : Int) : Option Nat :=
  let (num, den) := shifted 1 4 exponent
  let (num, den) :=
    match grid with
    | .ofNat n => (num, den * Nat.pow 10 n)
    | .negSucc n => (num * Nat.pow 10 (n + 1), den)
  let low := bounds.low * num
  let middle := bounds.middle * num
  let high := bounds.high * num
  let inside (point : Nat) : Bool :=
    let p := point * den
    if bounds.isClosed then low ≤ p && p ≤ high else low < p && p < high
  let below := middle / den
  let above := below + 1
  match inside below, inside above with
  | true, true =>
    let down := middle - below * den
    let up := above * den - middle
    if down < up ∨ (down = up ∧ below % 2 = 0) then some below else some above
  | true, false => some below
  | false, true => some above
  | false, false => none

/-- The first grid, from coarse to fine, that has a point in the interval. -/
private def search (bounds : Interval) (exponent : Int) (grid : Int) : Nat → Decimal
  | 0 => ⟨0, grid⟩
  | fuel + 1 =>
    match gridPoint? bounds exponent grid with
    | some point => ⟨point, grid⟩
    | none => search bounds exponent (grid - 1) fuel

/-- The shortest decimal that rounds to a positive number. -/
def shortest (x : Binary64) : Decimal :=
  let (num, den) := shifted x.mantissa 1 x.exponent
  let power := powerOf num den 308 640
  search (interval x) x.exponent power 17

/-- Between these powers of ten of the first digit a number is written without an exponent. -/
def plainPowers : Int × Int := (-5, 15)

private def digitsText (digits : List Char) (power : Int) : List Char :=
  let (least, greatest) := plainPowers
  if power < least ∨ greatest < power then
    let fraction := if digits.length ≤ 1 then [] else '.' :: digits.drop 1
    let sign := if power < 0 then '-' else '+'
    digits.take 1 ++ fraction ++ 'e' :: sign :: Nat.toDigits 10 power.natAbs
  else
    match power with
    | .negSucc n => '0' :: '.' :: List.replicate n '0' ++ digits
    | .ofNat n =>
      let whole := digits.take (n + 1)
      let fraction := digits.drop (n + 1)
      whole ++ List.replicate (n + 1 - whole.length) '0' ++
        '.' :: (if fraction = [] then ['0'] else fraction)

/-- The text of a number: its shortest digits, always with a point or an exponent. -/
def text (x : Binary64) : List Char :=
  let magnitude :=
    if x.mantissa = 0 then ['0', '.', '0']
    else
      let ⟨coefficient, exponent⟩ := x.shortest
      let all := Nat.toDigits 10 coefficient
      let digits := (all.reverse.dropWhile (· = '0')).reverse
      digitsText digits (exponent + (all.length - 1 : Nat))
  if x.negative then '-' :: magnitude else magnitude

end Binary64

end ShapeRules
