import Reshape.Text.CharWidth

/-!
Ligatures: letters that are drawn as one shape, and so take fewer columns together than apart.

A text is looked at from its end. A `LigaturePart` is what of a ligature the text behind a character
starts with, and `LigaturePart.extend?` says whether the character before it belongs to it. Between
the letters there may be marks that are not shown and, but for Arabic, joiners; some scripts need
a joiner to make the ligature.
-/

namespace Reshape.Text

/-- The joiner, which asks for its two neighbours to be drawn as one. -/
def joiner : Char := '\u200D'

/-- What of a ligature a text starts with. A part that is `joined` has a joiner before it. -/
inductive LigaturePart where
  | alef
  | lamed (joined : Bool)
  | ya (joined : Bool)
  | vowelAndYa
  | tifinagh (joined : Bool)
  | tifinaghPair
  | lowTone
  | orkhonI (joined : Bool)
  | subscript
deriving DecidableEq

/-- Whether a character is a letter alef of Arabic, of any form. -/
def isAlef (c : Char) : Bool :=
  isWithin
    [0x622, 0x624, 0x625, 0x626, 0x627, 0x628, 0x671, 0x674, 0x675, 0x676, 0x773, 0x775, 0x870,
      0x883] c

/-- Whether a character is a letter lam of Arabic, of any form. -/
def isLam (c : Char) : Bool :=
  isWithin [0x644, 0x645, 0x6B5, 0x6B9, 0x76A, 0x76B, 0x8A6, 0x8A7, 0x8C7, 0x8C8] c

/-- Whether a character is a consonant of Tifinagh. -/
def isTifinagh (c : Char) : Bool :=
  isWithin [0x2D31, 0x2D66, 0x2D6F, 0x2D70] c

/-- Whether a character is a letter of Khmer that the sign coeng before it puts below the line. -/
def isSubscriptLetter (c : Char) : Bool :=
  isWithin
    [0x1780, 0x1783, 0x1784, 0x1788, 0x1789, 0x178D, 0x178E, 0x1794, 0x1795, 0x1799, 0x179B,
      0x179E, 0x17A0, 0x17A1, 0x17A2, 0x17A3, 0x17A7, 0x17A8, 0x17AB, 0x17AD, 0x17AF, 0x17B0] c

/-- Whether a character is a tone of Lisu that may be the first of two. -/
def isHighTone (c : Char) : Bool :=
  isWithin [0xA4F8, 0xA4FC] c

/-- Whether a character is a tone of Lisu that may be the second of two. -/
def isLowTone (c : Char) : Bool :=
  isWithin [0xA4FC, 0xA4FE] c

/-- Whether a character is a mark that is not shown. -/
def isHiddenMark (c : Char) : Bool :=
  isWithin
    [0x34F, 0x350, 0x17B4, 0x17B6, 0x180B, 0x180E, 0x180F, 0x1810, 0xFE00, 0xFE10, 0xE0100,
      0xE01F0] c

/-- The bounds of the set of characters without a column that still part a lam from its alef. -/
def partingBounds : List Nat :=
  [
    0x605, 0x606, 0x890, 0x892, 0x8E2, 0x8E3, 0x9BE, 0x9BF, 0x9D7, 0x9D8, 0xB3E, 0xB3F, 0xB57,
    0xB58, 0xBBE, 0xBBF, 0xBD7, 0xBD8, 0xCC0, 0xCC1, 0xCC2, 0xCC3, 0xCC7, 0xCC9, 0xCCA, 0xCCC,
    0xCD5, 0xCD7, 0xD3E, 0xD3F, 0xD4E, 0xD4F, 0xD57, 0xD58, 0xDCF, 0xDD0, 0xDDF, 0xDE0, 0x1160,
    0x1200, 0x180E, 0x180F, 0x1B35, 0x1B36, 0x1B3B, 0x1B3C, 0x1B3D, 0x1B3E, 0x1B43, 0x1B44,
    0x200C, 0x200E, 0x2065, 0x206A, 0x302E, 0x3030, 0x3164, 0x3165, 0xA8FA, 0xA8FB, 0xD7B0,
    0xD7C7, 0xD7CB, 0xD7FC, 0xFF9E, 0xFFA1, 0xFFF0, 0xFFF9, 0x111C2, 0x111C4, 0x1133E, 0x1133F,
    0x11357, 0x11358, 0x114B0, 0x114B1, 0x114BD, 0x114BE, 0x115AF, 0x115B0, 0x11930, 0x11931,
    0x1193F, 0x11940, 0x11941, 0x11942, 0x11A3A, 0x11A3B, 0x11A84, 0x11A8A, 0x11D46, 0x11D47,
    0x11F02, 0x11F03, 0x1D165, 0x1D166, 0x1D16E, 0x1D173, 0xE0000, 0xE0001, 0xE0002, 0xE0020,
    0xE0080, 0xE0100, 0xE01F0, 0xE1000
  ]

/-- Whether a lam and its alef may have a character between them. -/
def isBetweenLamAndAlef (c : Char) : Bool :=
  charWidth c = 0 && !isWithin partingBounds c

namespace LigaturePart

/-- The part that a character makes by itself. -/
def ofChar? (c : Char) : Option LigaturePart :=
  if isAlef c then some .alef
  else if c = '\u05DC' then some (.lamed false)
  else if c = '\u1A10' then some (.ya false)
  else if isTifinagh c then some (.tifinagh false)
  else if isLowTone c then some .lowTone
  else if c.toNat = 0x10C03 then some (.orkhonI false)
  else if isSubscriptLetter c then some .subscript
  else none

/-- The part with a joiner before it. -/
def join : LigaturePart → LigaturePart
  | .lamed _ => .lamed true
  | .ya _ => .ya true
  | .tifinagh _ => .tifinagh true
  | .orkhonI _ => .orkhonI true
  | part => part

/-- What a letter before a part adds to the columns, and the part that the two make, if they belong
together. -/
def extendByLetter? (part : LigaturePart) (c : Char) : Option (Int × Option LigaturePart) :=
  match part with
  | .alef => if isLam c then some (0, none) else none
  | .lamed true => if c = '\u05D0' then some (0, none) else none
  | .ya true => if c = '\u1A17' then some (0, some .vowelAndYa) else none
  | .vowelAndYa => if c = '\u1A15' then some (0, none) else none
  | .tifinagh joined =>
      if c = '\u2D7F' then some (1, some .tifinaghPair)
      else if joined && isTifinagh c then some (0, none)
      else none
  | .tifinaghPair => if isTifinagh c then some (-1, none) else none
  | .lowTone => if isHighTone c then some (0, none) else none
  | .orkhonI true => if c.toNat = 0x10C32 then some (0, none) else none
  | .subscript => if c = '\u17D2' then some (-1, none) else none
  | .lamed false | .ya false | .orkhonI false => none

/-- What a character before a part adds to the columns, and the part that the two make, if they
belong together. -/
def extend? (part : LigaturePart) (c : Char) : Option (Int × Option LigaturePart) :=
  let passed :=
    if part = .alef then
      if isBetweenLamAndAlef c then some (0, some part) else none
    else if c = joiner then some (0, some part.join)
    else if isHiddenMark c then some (0, some part)
    else none
  passed <|> part.extendByLetter? c

end LigaturePart

end Reshape.Text
