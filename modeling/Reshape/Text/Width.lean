import Reshape.Text.EmojiSequence

/-!
The width of a line of text on a terminal, in columns.

It is the sum of the widths of the characters, but for ligatures, for sequences of emoji, and for
the selectors U+FE0E and U+FE0F, which make a plain symbol of one column or a picture of two of the
character before them. The line is read from its end, so that what stands behind a character is
known when its columns are counted.
-/

namespace Reshape.Text

/-- What a selector asks the character before it to be shown as. -/
inductive Style where
  | text
  | picture
deriving DecidableEq

/-- What the text behind a character starts with, of what changes the width of the character. -/
inductive WidthPart where
  | ligature (part : LigaturePart)
  | emoji (part : EmojiPart)
deriving DecidableEq

namespace WidthPart

/-- The part that a character makes by itself. -/
def ofChar? (c : Char) : Option WidthPart :=
  (LigaturePart.ofChar? c).map .ligature <|> (EmojiPart.ofChar? c).map .emoji

/-- What a character before a part adds to the columns, and the part that the two make, if they
belong together. -/
def extend? (part : WidthPart) (c : Char) : Option (Int × Option WidthPart) :=
  match part with
  | .ligature part => (part.extend? c).map fun (columns, part) => (columns, part.map .ligature)
  | .emoji part => (part.extend? c).map fun (columns, part) => (columns, some (.emoji part))

/-- Whether a part is one of a ligature, which a selector before it does not break. -/
def isLigature : WidthPart → Bool
  | .ligature _ => true
  | .emoji _ => false

/-- Whether a part waits for a symbol that the selector for pictures makes a picture. -/
def awaitsSymbol : WidthPart → Bool
  | .ligature _ => false
  | .emoji part => part.awaitsSymbol

end WidthPart

/-- What stands behind a character: a selector, and the part that the text behind it starts with. -/
structure Following where
  style? : Option Style
  part? : Option WidthPart
deriving DecidableEq

namespace Following

/-- What stands behind the last character of a line. -/
def nothing : Following := ⟨none, none⟩

/-- What stands behind a character that is not the symbol that a selector asks for. -/
def withoutStyle (next : Following) : Following :=
  ⟨none, if next.style?.isSome then next.part?.filter WidthPart.isLigature else next.part?⟩

/-- What a selector makes of what stands behind it. -/
def select (next : Following) (style : Style) : Following :=
  ⟨some style,
    next.part?.filter fun part => part.isLigature || style = .picture && part.awaitsSymbol⟩

/-- The columns that a character adds to those behind it when no selector bears on it, and what then
stands behind the character before it. -/
def precede (next : Following) (c : Char) : Int × Following :=
  match next.part?.bind fun part => part.extend? c with
  | some (columns, part?) => (columns, ⟨none, part?⟩)
  | none => (charWidth c, ⟨none, WidthPart.ofChar? c⟩)

/-- The columns that a character adds to those behind it, and what then stands behind the character
before it. -/
def step (c : Char) (next : Following) : Int × Following :=
  if next.style? = some .picture ∧ takesPictureStyle c then
    (if next.part?.any WidthPart.awaitsSymbol then 0 else 2, ⟨none, some (.emoji .picture)⟩)
  else if c.toNat ≤ 0xA0 then (1, nothing)
  else if c = '\uFE0F' then
    (0, (if next.style? = some .picture then next.withoutStyle else next).select .picture)
  else if c = '\uFE0E' then (0, next.select .text)
  else if next.style? = some .text ∧ takesTextStyle c then (1, nothing)
  else next.withoutStyle.precede c

end Following

/-- The columns that a line takes, and what stands behind a character before it. -/
def measure (line : List Char) : Int × Following :=
  line.foldr
    (fun c behind =>
      let (added, next) := behind.2.step c
      (behind.1 + added, next))
    (0, .nothing)

/-- The number of columns that a line takes. -/
def width (line : List Char) : Nat :=
  (measure line).1.toNat

end Reshape.Text
