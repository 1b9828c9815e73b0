import Reshape.Text.Emoji
import Reshape.Text.Ligature

/-!
Sequences of emoji: several characters that are drawn as one picture of two columns.

A picture with a skin tone behind it, two letters of a flag, and pictures with joiners between them
are such sequences. A text is looked at from its end. An `EmojiPart` is what of a sequence the text
behind a character starts with, and `EmojiPart.extend?` says whether the character before it belongs
to it.
-/

namespace Reshape.Text

/-- How many letters of flags a text starts with: one, or more than one. -/
inductive FlagLetters where
  | one
  | more
deriving DecidableEq

/-- How many letters of flags stand before a joiner and a picture: one, or more than one and then an
even or an odd number. -/
inductive JoinedFlagLetters where
  | one
  | even
  | odd
deriving DecidableEq

/-- What of a sequence of emoji a text starts with. The parts whose names begin with `joined` have a
joiner and a picture behind them; `joinedTags` is the end of the name of a flag, in letters with
digits before them. -/
inductive EmojiPart where
  | picture
  | skinTone
  | flag (letters : FlagLetters)
  | joined
  | joinedKeycap
  | joinedFlag (letters : JoinedFlagLetters)
  | joinedTags (letters digits : Nat)
deriving DecidableEq

/-- Whether a character is a letter in the name of a flag. -/
def isTagLetter (c : Char) : Bool :=
  0xE0061 ≤ c.toNat && c.toNat ≤ 0xE007A

/-- Whether a character is a digit in the name of a flag. -/
def isTagDigit (c : Char) : Bool :=
  0xE0030 ≤ c.toNat && c.toNat ≤ 0xE0039

namespace EmojiPart

/-- The part that a character makes by itself. -/
def ofChar? (c : Char) : Option EmojiPart :=
  if isPicture c then some .picture
  else if isSkinTone c then some .skinTone
  else if isFlagLetter c then some (.flag .one)
  else none

/-- Whether a joiner may stand before a part, so that a picture before the joiner belongs to it. -/
def isJoinable : EmojiPart → Bool
  | .picture | .skinTone | .flag .more | .joinedFlag .even | .joinedFlag .odd => true
  | _ => false

/-- Whether a part waits for a symbol that the selector for pictures makes a picture. -/
def awaitsSymbol (part : EmojiPart) : Bool :=
  part = .joined || part = .joinedKeycap

/-- What a character before a joiner and a picture adds to the columns, and the part it makes. -/
def extendJoined? (c : Char) : Option (Int × EmojiPart) :=
  if c = '\u20E3' then some (0, .joinedKeycap)
  else if isFlagLetter c then some (1, .joinedFlag .one)
  else if isSkinTone c then some (0, .skinTone)
  else if c.toNat = 0xE007F then some (0, .joinedTags 0 0)
  else if isPicture c then some (0, .picture)
  else none

/-- The part that a character before the end of the name of a flag makes. The whole name is a region
of two letters or three digits and letters behind it, and the black flag stands before it. -/
def extendTags? (letters digits : Nat) (c : Char) : Option EmojiPart :=
  if isTagLetter c then
    if digits = 0 ∧ letters < 6 then some (.joinedTags (letters + 1) 0) else none
  else if isTagDigit c then
    if digits < 3 ∧ letters ≤ 4 then some (.joinedTags letters (digits + 1)) else none
  else if c.toNat = 0x1F3F4 ∧ (digits = 3 ∨ digits = 0 ∧ 3 ≤ letters) then some .picture
  else none

/-- What a character before a part adds to the columns, and the part that the two make, if they
belong together. Letters of flags pair off from the first one, so each one more changes which of
them the joiner ties to the picture behind it. -/
def extend? (part : EmojiPart) (c : Char) : Option (Int × EmojiPart) :=
  if c = joiner then if part.isJoinable then some (0, .joined) else none
  else
    match part with
    | .picture | .joinedKeycap => none
    | .skinTone => if isBody c then some (0, .picture) else none
    | .flag _ => if isFlagLetter c then some (1, .flag .more) else none
    | .joined => extendJoined? c
    | .joinedFlag .even => if isFlagLetter c then some (3, .joinedFlag .odd) else none
    | .joinedFlag _ => if isFlagLetter c then some (-1, .joinedFlag .even) else none
    | .joinedTags letters digits => (extendTags? letters digits c).map ((0, ·))

end EmojiPart

end Reshape.Text
