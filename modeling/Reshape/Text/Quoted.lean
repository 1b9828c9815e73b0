import Reshape.Text.CombiningMark
import Reshape.Text.Unprintable

/-!
Text in quotation marks, as it is shown to a reader of diagnostics.

The quotation mark, the backslash and the common controls have escapes of their own. What could
not be told by eye, because it is unprintable or a mark on the character before it, is shown by its
code point in hexadecimal. All else stands for itself.
-/

namespace Reshape.Text

/-- A code point in hexadecimal, between braces. -/
def codePointEscape (c : Char) : List Char :=
  '\\' :: 'u' :: '{' :: Nat.toDigits 16 c.toNat ++ ['}']

/-- How a character is shown between quotation marks. -/
def quotedChar (c : Char) : List Char :=
  if c = '\x00' then ['\\', '0']
  else if c = '\t' then ['\\', 't']
  else if c = '\r' then ['\\', 'r']
  else if c = '\n' then ['\\', 'n']
  else if c = '"' then ['\\', '"']
  else if c = '\\' then ['\\', '\\']
  else if isCombiningMark c || isUnprintable c then codePointEscape c
  else [c]

/-- A text in quotation marks. -/
def quoted (text : String) : String :=
  String.ofList ('"' :: text.toList.flatMap quotedChar ++ ['"'])

end Reshape.Text
