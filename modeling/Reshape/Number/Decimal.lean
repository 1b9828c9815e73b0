import Reshape.Number.Binary64

/-!
Decimal magnitudes, and the shortest one that names a binary64 number.

A decimal is a coefficient times a power of ten. `Decimal.toBinary64?` rounds it to the nearest
binary64 number. `Binary64.shortest` goes the other way: it looks at the decimals of one digit,
then of two, and so on, and takes the first that rounds to the given number; of two such decimals
with equally many digits it takes the nearer, and the one with the even coefficient when both are
equally near.
-/

namespace Reshape

/-- A magnitude: a coefficient times ten to the power of an exponent. -/
structure Decimal where
  coefficient : Nat
  exponent : Int
deriving DecidableEq

namespace Decimal

/-- The binary64 number nearest to a decimal, or nothing when that is past the greatest finite
one. Exponents past any finite magnitude, on either side, are settled before a power of ten is
computed. -/
def toBinary64? (negative : Bool) (d : Decimal) : Option Binary64 :=
  if d.coefficient = 0 then some (.zero negative)
  else if 310 < d.exponent then none
  else if d.exponent + d.coefficient.log2 < -340 then some (.zero negative)
  else
    let (num, den) := Binary64.scaleDown 10 (-d.exponent) d.coefficient 1
    Binary64.ofQuotient? negative num den

/-- The decimal digits of the coefficient. -/
def digits (d : Decimal) : List Char :=
  Nat.toDigits 10 d.coefficient

/-- The digits that are left when the zeros at the end are dropped. -/
def significantDigits (d : Decimal) : List Char :=
  (d.digits.reverse.dropWhile (· == '0')).reverse

/-- The power of ten at the first digit. -/
def leadingExponent (d : Decimal) : Int :=
  d.exponent + d.digits.length - 1

end Decimal

namespace Binary64

/-- The decimal that is exactly the magnitude of a number. -/
def exact (x : Binary64) : Decimal :=
  if 0 ≤ x.exponent then ⟨x.significand * Nat.pow 2 x.exponent.toNat, 0⟩
  else ⟨x.significand * Nat.pow 5 (-x.exponent).toNat, x.exponent⟩

/-- Whether a decimal rounds to the number `x`. -/
def isNamedBy (x : Binary64) (d : Decimal) : Bool :=
  d.toBinary64? x.negative == some x

/-- The greatest `k` such that ten to the power `k` is at most `num / den`, for positive `num` and
`den`. -/
def floorLogTen (num den : Nat) : Int :=
  if den ≤ num then (Nat.toDigits 10 (num / den)).length - 1
  else -((Nat.toDigits 10 ((den - 1) / num)).length : Int)

/-- The multiples of a power of ten on either side of a magnitude, the nearer first, and the
even one first when both are equally near. -/
def neighbours (x : Binary64) (exponent : Int) : Decimal × Decimal :=
  let (num, den) := scaleDown 10 exponent x.quotient.1 x.quotient.2
  let below : Decimal := ⟨num / den, exponent⟩
  let above : Decimal := ⟨num / den + 1, exponent⟩
  if nearest num den = num / den then (below, above) else (above, below)

/-- The better of the two neighbours at one exponent that name the number. -/
def namedAt? (x : Binary64) (exponent : Int) : Option Decimal :=
  let (first, second) := x.neighbours exponent
  if x.isNamedBy first then some first
  else if x.isNamedBy second then some second
  else none

/-- The decimal of the fewest digits that names a number, and of those the nearest. Seventeen
digits are always enough; the exact decimal stands behind them. -/
def shortest (x : Binary64) : Decimal :=
  if x.rank = 0 then ⟨0, 0⟩
  else
    let lead := floorLogTen x.quotient.1 x.quotient.2
    ((List.range 17).findSome? fun extra : Nat => x.namedAt? (lead - extra)).getD x.exact

end Binary64

end Reshape
