import Reshape.Number.Decimal

/-!
Conversions of decimal digits to binary64.

`Conversion.exact` gives the number that is nearest to what the digits write. `Conversion.scaled`
computes with binary64 numbers. It takes the digits in front that write a whole number of
sixty-four bits, rounds that number, and multiplies it by a power of ten or divides it by one.
The power is rounded before, and the product or quotient is rounded again, so the result may be a
neighbour of the nearest number, or out of range just below the greatest finite one. Documents are
read with it.
-/

namespace Reshape

namespace Binary64

/-- The number nearest to a power of ten. -/
def powerOfTen? (n : Nat) : Option Binary64 :=
  ofQuotient? false (Nat.pow 10 n) 1

/-- The number nearest to a number times a positive one. -/
def times? (x power : Binary64) : Option Binary64 :=
  ofQuotient? x.negative (x.quotient.1 * power.quotient.1) (x.quotient.2 * power.quotient.2)

/-- The number nearest to a number divided by a positive one. -/
def over? (x power : Binary64) : Option Binary64 :=
  ofQuotient? x.negative (x.quotient.1 * power.quotient.2) (x.quotient.2 * power.quotient.1)

/-- The exponent of the greatest power of ten among the finite numbers. -/
def greatestPower : Nat := 308

/-- Divides by the greatest power of ten, as often as it is told to or until zero is left, and then
by one more power of ten. -/
def divide? (x : Binary64) (n : Nat) : Nat → Option Binary64
  | 0 => do x.over? (← powerOfTen? n)
  | turns + 1 =>
      if x.rank = 0 then some x
      else do divide? (← x.over? (← powerOfTen? greatestPower)) n turns

/-- Multiplies by a power of ten, or divides when its exponent is negative. There is but one
multiplication, so that only zero may have a greater exponent than the greatest power of ten. -/
def scale? (x : Binary64) (exponent : Int) : Option Binary64 :=
  if exponent < 0 then
    let places := (-exponent).toNat - 1
    x.divide? (places % greatestPower + 1) (places / greatestPower)
  else if exponent ≤ greatestPower then do x.times? (← powerOfTen? exponent.toNat)
  else if x.rank = 0 then some x
  else none

end Binary64

/-- How a number with a sign, digits before and behind the point, and an exponent becomes a
binary64 number, if it is not out of range. -/
abbrev Conversion :=
  Bool → List Char → List Char → Int → Option Binary64

namespace Conversion

/-- The number nearest to what is written. -/
def exact : Conversion := fun negative whole fraction exponent =>
  Decimal.toBinary64? negative
    ⟨Nat.ofDigitChars 10 (whole ++ fraction) 0, exponent - fraction.length⟩

/-- Writes digits behind a number for as long as it fits sixty-four bits. The digits that are left
stand beside it. -/
def fill (seen : Nat) : List Char → Nat × List Char
  | [] => (seen, [])
  | c :: rest =>
      let next := seen * 10 + (c.toNat - '0'.toNat)
      if next ≤ 0xFFFFFFFFFFFFFFFF then fill next rest else (seen, c :: rest)

/-- The digits that fit sixty-four bits, times a power of ten. Of the others, those before the point
count as places and those behind it not at all. -/
def scaled : Conversion := fun negative whole fraction exponent => do
  let (front, unread) := fill 0 whole
  let (significand, dropped) := fill front fraction
  let x ← Binary64.ofQuotient? negative significand 1
  x.scale? (exponent + unread.length - (fraction.length - dropped.length : Nat))

end Conversion

end Reshape
