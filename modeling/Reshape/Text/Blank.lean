import Reshape.Text.CharSet

/-!
White space: the characters that separate words, of any script and width, line breaks included.
A character that only has no width, such as U+200B, is not among them.
-/

namespace Reshape.Text

/-- The bounds of the set of white space. -/
def whiteSpaceBounds : List Nat :=
  [
    0x9, 0xE, 0x20, 0x21, 0x85, 0x86, 0xA0, 0xA1, 0x1680, 0x1681, 0x2000, 0x200B, 0x2028, 0x202A,
    0x202F, 0x2030, 0x205F, 0x2060, 0x3000, 0x3001
  ]

/-- Whether a character is white space. -/
def isWhiteSpace (c : Char) : Bool :=
  isWithin whiteSpaceBounds c

/-- Whether a text holds nothing but white space. -/
def isBlank (text : String) : Bool :=
  text.toList.all isWhiteSpace

end Reshape.Text
