import Reshape.Text.Width

/-!
The width of a line that may hold the colour sequences of a terminal.

Such a sequence is the escape character, a bracket, and what follows up to the letter `m`, or up to
the end of the line when there is none. It takes the column that is counted for its escape
character; of every character behind that which is shown elsewhere, one column is taken off again.
-/

namespace Reshape.Text

/-- What part of a colour sequence a line is in, if any. -/
inductive ColourPart where
  | none
  | start
  | setting
deriving DecidableEq

/-- Whether a character is a control character. -/
def isControl (c : Char) : Bool :=
  c.toNat < 0x20 || 0x7F ≤ c.toNat && c.toNat < 0xA0

/-- The part that a character leads to. -/
def ColourPart.next (part : ColourPart) (c : Char) : ColourPart :=
  match part with
  | .none => if c = '\x1b' then .start else .none
  | .start => if c = '[' then .setting else .none
  | .setting => if c = 'm' then .none else .setting

/-- Whether a character in some part is within a colour sequence and behind its escape character. -/
def ColourPart.hides (part : ColourPart) (c : Char) : Bool :=
  match part with
  | .none => false
  | .start => c = '['
  | .setting => !isControl c && charWidth c ≠ 0

/-- How many characters are hidden in a line that starts in some part of a colour sequence. -/
def hiddenFrom (part : ColourPart) : List Char → Nat
  | [] => 0
  | c :: rest => (if part.hides c then 1 else 0) + hiddenFrom (part.next c) rest

/-- The number of columns that a line takes besides its colour sequences. -/
def colouredWidth (line : List Char) : Nat :=
  width line - hiddenFrom .none line

end Reshape.Text
