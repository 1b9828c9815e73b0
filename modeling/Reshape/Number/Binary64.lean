/-!
Finite binary64 numbers, held as a sign and a rank.

The finite magnitudes in increasing order are numbered from zero, and the number of a magnitude
is its rank. The first `fullUnits` ranks are the subnormal multiples of the least positive
magnitude; from there on every run of `fullUnits` ranks covers one power of two. `significand` and
`exponent` read a rank as a significand times a power of two, and `ofQuotient?` rounds a quotient
to the nearest magnitude, an exact half going to the even rank.
-/

namespace Reshape

/-- Two to the fifty-second: the number of magnitudes within one power of two. -/
def Binary64.fullUnits : Nat := 0x10000000000000

/-- The number of finite magnitudes: 2047 runs of `fullUnits` each. -/
def Binary64.rankBound : Nat := 2047 * Binary64.fullUnits

/-- A finite binary64 number: its sign, and the rank of its magnitude. -/
structure Binary64 where
  negative : Bool
  rank : Nat
  rank_lt : rank < Binary64.rankBound
deriving DecidableEq

namespace Binary64

/-- The whole number of units in a magnitude, fifty-three bits at most. -/
def significand (x : Binary64) : Nat :=
  if x.rank < fullUnits then x.rank else x.rank % fullUnits + fullUnits

/-- The power of two that is one unit of a magnitude. -/
def exponent (x : Binary64) : Int :=
  if x.rank < fullUnits then -1074 else (x.rank / fullUnits : Nat) - 1075

/-- Zero, with either sign. -/
def zero (negative : Bool) : Binary64 :=
  ⟨negative, 0, by decide⟩

/-- The quotient `num / den` divided by `base` to the power `exponent`, as a quotient again. -/
def scaleDown (base : Nat) (exponent : Int) (num den : Nat) : Nat × Nat :=
  (num * Nat.pow base (-exponent).toNat, den * Nat.pow base exponent.toNat)

/-- The magnitude of a number as a quotient of whole numbers. -/
def quotient (x : Binary64) : Nat × Nat :=
  scaleDown 2 (-x.exponent) x.significand 1

/-- The whole number nearest to `num / den`; an exact half goes to the even neighbour. -/
def nearest (num den : Nat) : Nat :=
  let whole := num / den
  let rest := 2 * (num % den)
  if rest < den then whole
  else if den < rest then whole + 1
  else whole + whole % 2

/-- The greatest `k` such that two to the power `k` is at most `num / den`, for positive `num` and
`den`. -/
def floorLog (num den : Nat) : Int :=
  let guess : Int := (num.log2 : Int) - den.log2
  let (scaledNum, scaledDen) := scaleDown 2 guess num den
  if scaledDen ≤ scaledNum then guess else guess - 1

/-- The exponent of one unit among the magnitudes near `num / den`. -/
def unitExponent (num den : Nat) : Int :=
  let exponent := floorLog num den - 52
  if exponent < -1074 then -1074 else exponent

/-- The rank nearest to `num / den`, before any bound is put on it. The units below the binade of
the quotient and the rounded units within it count on from one another, so that a carry out of a
binade lands on the first rank of the next. -/
def nearestRank (num den : Nat) : Nat :=
  let unit := unitExponent num den
  let (units, whole) := scaleDown 2 unit num den
  (unit + 1074).toNat * fullUnits + nearest units whole

/-- The binary64 number nearest to `num / den`, or nothing when that is past the greatest finite
one. -/
def ofQuotient? (negative : Bool) (num den : Nat) : Option Binary64 :=
  if num = 0 then some (zero negative)
  else if h : nearestRank num den < rankBound then some ⟨negative, nearestRank num den, h⟩
  else none

end Binary64

end Reshape
