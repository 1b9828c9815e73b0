import Reshape.Number.Decimal

/-!
Numbers of a document: whole numbers of up to sixty-four bits, and binary64 numbers.

`Number.text` says how a number is written. A whole number is written plainly. A binary64 number is
written with the fewest digits that name it, positionally from `0.00001` up to below ten to the
sixteenth, and with an exponent outside that range.
-/

namespace Reshape

/-- A number: a whole number that fits sixty-four bits, signed or unsigned, or a binary64
number. -/
inductive Number where
  | whole (value : Int) (fits : -0x8000000000000000 ≤ value ∧ value ≤ 0xFFFFFFFFFFFFFFFF)
  | binary (value : Binary64)
deriving DecidableEq

namespace Number

/-- The whole number with a sign and a magnitude, when it fits. A negative zero does not. -/
def ofInteger? (negative : Bool) (magnitude : Nat) : Option Number :=
  if negative then
    if h : 0 < magnitude ∧ magnitude ≤ 0x8000000000000000 then
      some (.whole (-magnitude) (by omega))
    else none
  else if h : magnitude ≤ 0xFFFFFFFFFFFFFFFF then some (.whole magnitude (by omega))
  else none

/-- Digits in positional notation, at least one on either side of the point. The first digit
stands at the power `lead` of ten. -/
def positional (digits : List Char) (lead : Int) : List Char :=
  if lead < 0 then
    '0' :: '.' :: List.replicate (-lead - 1).toNat '0' ++ digits
  else
    let places := lead.toNat + 1
    let fraction := digits.drop places
    digits.take places ++ List.replicate (places - digits.length) '0' ++
      '.' :: (if fraction.isEmpty then ['0'] else fraction)

/-- Digits with the point behind the first of them and an exponent that is always signed. -/
def scientific (digits : List Char) (lead : Int) : List Char :=
  let fraction := digits.drop 1
  digits.take 1 ++ (if fraction.isEmpty then [] else '.' :: fraction) ++
    'e' :: (if lead < 0 then '-' else '+') :: Nat.toDigits 10 lead.natAbs

/-- The text of a decimal magnitude: positional when its first digit stands between the fifth
place behind the point and the sixteenth before it, and with an exponent elsewhere. -/
def decimalText (d : Decimal) : List Char :=
  if d.coefficient = 0 then ['0', '.', '0']
  else if -5 ≤ d.leadingExponent ∧ d.leadingExponent < 16 then
    positional d.significantDigits d.leadingExponent
  else scientific d.significantDigits d.leadingExponent

/-- A minus sign, or nothing. -/
def sign (negative : Bool) : List Char :=
  if negative then ['-'] else []

/-- How a number is written in a document. -/
def text : Number → List Char
  | .whole value _ => sign (value < 0) ++ Nat.toDigits 10 value.natAbs
  | .binary x => sign x.negative ++ decimalText x.shortest

end Number

end Reshape
