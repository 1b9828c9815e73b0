/-!
Percent-encoding of text within a URL.

A text is encoded byte by byte in UTF-8. The unreserved bytes, which are the letters and digits of
ASCII and four marks, stand for themselves; every other byte is written as a percent sign and two
hexadecimal digits. No delimiter of a URL is left in the result.
-/

namespace Reshape.Web

/-- The bytes of a text in UTF-8. -/
def utf8 (text : String) : List UInt8 :=
  text.toList.flatMap String.utf8EncodeChar

namespace PercentEncoding

/-- Whether a byte stands for itself. -/
def isUnreserved (byte : UInt8) : Bool :=
  let c := Char.ofNat byte.toNat
  c.isAlphanum || c = '-' || c = '_' || c = '.' || c = '~'

/-- The digits of hexadecimal numbers, in upper case. -/
def hexDigit (n : Nat) : Char :=
  if n < 10 then Char.ofNat ('0'.toNat + n) else Char.ofNat ('A'.toNat + (n - 10))

/-- The encoding of one byte. -/
def encodeByte (byte : UInt8) : List Char :=
  if isUnreserved byte then [Char.ofNat byte.toNat]
  else ['%', hexDigit (byte.toNat / 16), hexDigit (byte.toNat % 16)]

/-- The encoding of a text. -/
def encode (text : String) : List Char :=
  (utf8 text).flatMap encodeByte

end PercentEncoding

end Reshape.Web
