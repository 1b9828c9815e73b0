import Reshape.Json
import Reshape.Json.Fault
import Reshape.Number.Conversion

/-!
Reading documents from text.

Every reader takes the text that is left and gives what it read with the text behind it, or stops
at the first fault. `value` is recursive in the number of containers that may still be opened, so
a limit on nesting is the very thing that bounds it; the loops over items and members are bounded
by the length of the text, which every turn shortens.

How the digits of a number are rounded is left to a `Conversion`. `Json.read` reads a whole text
under the usual limit and with `Conversion.scaled`, and so does all that reads documents here.
`Json.readDeep` tells what a text says: it has no limit short of the length of the text, and takes
each number for the nearest one.
-/

namespace Reshape.Json

/-- What a reader gives: what it read, or a stop. -/
abbrev Reading := Except Stop

/-- A reader: it takes the text that is left and gives what it read with the text behind it. -/
abbrev Reader (α : Type) := List Char → Reading (α × List Char)

/-- Whether a character may stand between the parts of a document. -/
def isBlank (c : Char) : Bool :=
  c = ' ' || c = '\t' || c = '\n' || c = '\r'

/-- Drops the blanks at the front of a text. -/
def skipBlanks (text : List Char) : List Char :=
  text.dropWhile isBlank

/-- Reads the remaining letters of a word. -/
def word : List Char → List Char → Reading (List Char)
  | [], rest => .ok rest
  | _ :: _, [] => .error ⟨.valueCutOff, [], 0⟩
  | letter :: letters, c :: rest =>
      if c = letter then word letters rest else .error ⟨.wordExpected, c :: rest, 1⟩

/-! ### Strings -/

/-- The value of a hexadecimal digit in either case. -/
def hexValue? (c : Char) : Option Nat :=
  if '0' ≤ c ∧ c ≤ '9' then some (c.toNat - '0'.toNat)
  else if 'a' ≤ c ∧ c ≤ 'f' then some (c.toNat - 'a'.toNat + 10)
  else if 'A' ≤ c ∧ c ≤ 'F' then some (c.toNat - 'A'.toNat + 10)
  else none

/-- The sixteen bits that four hexadecimal digits write. -/
def hexUnit? (a b c d : Char) : Option Nat := do
  return (((← hexValue? a) * 16 + (← hexValue? b)) * 16 + (← hexValue? c)) * 16 + (← hexValue? d)

/-- The character that a letter stands for behind a backslash. -/
def unescaped? (c : Char) : Option Char :=
  if c = '"' ∨ c = '\\' ∨ c = '/' then some c
  else if c = 'b' then some '\x08'
  else if c = 'f' then some '\x0c'
  else if c = 'n' then some '\n'
  else if c = 'r' then some '\r'
  else if c = 't' then some '\t'
  else none

/-- The fault of four bytes that should be hexadecimal digits and are not: there may be too few of
them, and else all four count. -/
def badUnit (text : List Char) : Stop :=
  if byteCount text < 4 then ⟨.stringCutOff, [], 0⟩ else ⟨.invalidEscape, text, 4⟩

/-- The fault of a text that should go on with the escape of a trailing surrogate and does not. -/
def notPaired : List Char → Stop
  | [] | ['\\'] => ⟨.stringCutOff, [], 0⟩
  | '\\' :: 'u' :: rest => badUnit rest
  | '\\' :: rest => ⟨.surrogateNotPaired, rest, 1⟩
  | rest => ⟨.surrogateNotPaired, rest, 1⟩

/-- Puts a character before what was read. -/
def before (c : Char) : Reading (List Char × List Char) → Reading (List Char × List Char) :=
  Except.map fun (text, rest) => (c :: text, rest)

/-- Reads the characters of a string up to its closing quotation mark. Characters beyond sixteen
bits may be escaped as a pair of surrogates, the leading one first; neither may stand alone. -/
def stringBody : Reader (List Char)
  | [] => .error ⟨.stringCutOff, [], 0⟩
  | '"' :: rest => .ok ([], rest)
  | ['\\'] => .error ⟨.stringCutOff, [], 0⟩
  | '\\' :: 'u' :: a :: b :: c :: d :: rest =>
      match hexUnit? a b c d with
      | none => .error (badUnit (a :: b :: c :: d :: rest))
      | some unit =>
          if 0xDC00 ≤ unit ∧ unit ≤ 0xDFFF then .error ⟨.surrogateAlone, rest, 0⟩
          else if 0xD800 ≤ unit ∧ unit ≤ 0xDBFF then
            match rest with
            | '\\' :: 'u' :: e :: f :: g :: h :: rest =>
                match hexUnit? e f g h with
                | none => .error (badUnit (e :: f :: g :: h :: rest))
                | some trailing =>
                    if 0xDC00 ≤ trailing ∧ trailing ≤ 0xDFFF then
                      before
                        (Char.ofNat (0x10000 + (unit - 0xD800) * 0x400 + (trailing - 0xDC00)))
                        (stringBody rest)
                    else .error ⟨.surrogateAlone, rest, 0⟩
            | rest => .error (notPaired rest)
          else before (Char.ofNat unit) (stringBody rest)
  | '\\' :: 'u' :: rest => .error (badUnit rest)
  | '\\' :: c :: rest =>
      match unescaped? c with
      | some plain => before plain (stringBody rest)
      | none => .error ⟨.invalidEscape, c :: rest, 1⟩
  | c :: rest =>
      if c.toNat < 0x20 then .error ⟨.controlCharacter, c :: rest, 1⟩
      else before c (stringBody rest)

/-! ### Numbers -/

/-- Reads the digits that stand at the front of a text, at least one. -/
def digits : Reader (List Char)
  | [] => .error ⟨.valueCutOff, [], 0⟩
  | c :: rest =>
      if c.isDigit then .ok (c :: rest.takeWhile Char.isDigit, rest.dropWhile Char.isDigit)
      else .error ⟨.invalidNumber, c :: rest, 1⟩

/-- Reads the digits before the point: a single zero, or digits that do not start with one. -/
def wholeDigits (text : List Char) : Reading (List Char × List Char) :=
  match text with
  | '0' :: c :: rest =>
      if c.isDigit then .error ⟨.invalidNumber, c :: rest, 1⟩ else .ok (['0'], c :: rest)
  | text => digits text

/-- The digits behind the first one that takes an exponent past thirty-one bits, if there is one.
The exponent has the value `seen` so far. -/
def pastExponentRange? (seen : Nat) : List Char → Option (List Char)
  | [] => none
  | c :: rest =>
      let seen := seen * 10 + (c.toNat - '0'.toNat)
      if 0x7FFFFFFF < seen then some rest else pastExponentRange? seen rest

/-- Reads the sign of an exponent, which may be left out. -/
def exponentSign : List Char → Bool × List Char
  | '-' :: rest => (true, rest)
  | '+' :: rest => (false, rest)
  | rest => (false, rest)

/-- Reads an exponent, if one stands there. When it is positive and out of range, a number that is
not zero is so at the digit where that shows. -/
def exponentPart? (isZero : Bool) : Reader (Option Int)
  | [] => return (none, [])
  | c :: rest =>
      if c = 'e' ∨ c = 'E' then do
        let (negative, rest) := exponentSign rest
        let (written, rest) ← digits rest
        let size := Nat.ofDigitChars 10 written 0
        if negative then return (some (-size), rest)
        match pastExponentRange? 0 written with
        | none => return (some size, rest)
        | some unread =>
            if isZero then return (some 0, rest)
            else .error ⟨.numberOutOfRange, unread ++ rest, 0⟩
      else return (none, c :: rest)

/-- Reads the digits behind a point, if one stands there. -/
def fractionPart? : Reader (Option (List Char))
  | '.' :: rest => (digits rest).map fun (read, rest) => (some read, rest)
  | rest => .ok (none, rest)

section

variable (convert : Conversion)

/-- The number with a sign, the digits before the point, those behind it if there is one, and an
exponent if there is one. With neither it is a whole number as long as it fits. -/
def assemble? (negative : Bool) (whole : List Char) (fraction? : Option (List Char))
    (exponent? : Option Int) : Option Number :=
  match fraction?, exponent? with
  | none, none =>
      Number.ofInteger? negative (Nat.ofDigitChars 10 whole 0) <|>
        (convert negative whole [] 0).map .binary
  | _, _ =>
      (convert negative whole (fraction?.getD []) (exponent?.getD 0)).map .binary

/-- Reads a number without its sign. -/
def magnitude (negative : Bool) (text : List Char) : Reading (Number × List Char) := do
  let (whole, rest) ← wholeDigits text
  let (fraction?, rest) ← fractionPart? rest
  let isZero := (whole ++ fraction?.getD []).all (· = '0')
  let (exponent?, rest) ← exponentPart? isZero rest
  match assemble? convert negative whole fraction? exponent? with
  | some number => return (number, rest)
  | none => .error ⟨.numberOutOfRange, rest, 0⟩

/-- Reads a number. -/
def number : Reader Number
  | '-' :: rest => magnitude convert true rest
  | text => magnitude convert false text

end

/-! ### Containers -/

/-- Reads items up to the closing bracket, the first of them at the front of the text. -/
def items (value : Reader Json) : Nat → Reader (List Json)
  | 0, text => .error ⟨.sequenceCutOff, text, 0⟩
  | turns + 1, text => do
      let (item, rest) ← value text
      match skipBlanks rest with
      | [] => .error ⟨.sequenceCutOff, [], 0⟩
      | ']' :: rest => return ([item], rest)
      | ',' :: rest =>
          match skipBlanks rest with
          | ']' :: rest => .error ⟨.trailingComma, ']' :: rest, 1⟩
          | rest => do
              let (more, rest) ← items value turns rest
              return (item :: more, rest)
      | rest => .error ⟨.sequenceNotContinued, rest, 1⟩

/-- Reads the rest of a sequence behind its opening bracket. -/
def sequence (value : Reader Json) (text : List Char) : Reading (Json × List Char) :=
  match skipBlanks text with
  | [] => .error ⟨.sequenceCutOff, [], 0⟩
  | ']' :: rest => .ok (.arr [], rest)
  | text => (items value text.length text).map fun (read, rest) => (.arr read, rest)

/-- Reads a key at the front of the text. -/
def key : Reader String
  | [] => .error ⟨.valueCutOff, [], 0⟩
  | '"' :: rest => (stringBody rest).map fun (text, rest) => (String.ofList text, rest)
  | rest => .error ⟨.keyNotString, rest, 1⟩

/-- Reads the colon behind a key. -/
def colon (text : List Char) : Reading (List Char) :=
  match skipBlanks text with
  | [] => .error ⟨.mappingCutOff, [], 0⟩
  | ':' :: rest => .ok rest
  | rest => .error ⟨.colonExpected, rest, 1⟩

/-- Reads members up to the closing brace, the first of them at the front of the text, and writes
them one after the other to those held already. -/
def members (value : Reader Json) :
    Nat → List (String × Json) → Reader (List (String × Json))
  | 0, _, text => .error ⟨.mappingCutOff, text, 0⟩
  | turns + 1, held, text => do
      let (name, rest) ← key text
      let rest ← colon rest
      let (item, rest) ← value rest
      let held := write name item held
      match skipBlanks rest with
      | [] => .error ⟨.mappingCutOff, [], 0⟩
      | '}' :: rest => return (held, rest)
      | ',' :: rest =>
          match skipBlanks rest with
          | '}' :: rest => .error ⟨.trailingComma, '}' :: rest, 1⟩
          | rest => members value turns held rest
      | rest => .error ⟨.mappingNotContinued, rest, 1⟩

/-- Reads the rest of a mapping behind its opening brace. -/
def mapping (value : Reader Json) (text : List Char) : Reading (Json × List Char) :=
  match skipBlanks text with
  | [] => .error ⟨.mappingCutOff, [], 0⟩
  | '}' :: rest => .ok (.obj [], rest)
  | text => (members value text.length [] text).map fun (read, rest) => (.obj read, rest)

/-! ### Documents -/

section

variable (convert : Conversion)

/-- Reads a document whose containers hold what `inner` reads. Without `inner` there may be no
container. -/
def document (inner : Option (Reader Json)) (text : List Char) : Reading (Json × List Char) :=
  match skipBlanks text with
  | [] => .error ⟨.valueCutOff, [], 0⟩
  | 'n' :: rest => (word "ull".toList rest).map fun rest => (.null, rest)
  | 't' :: rest => (word "rue".toList rest).map fun rest => (.bool true, rest)
  | 'f' :: rest => (word "alse".toList rest).map fun rest => (.bool false, rest)
  | '"' :: rest => (stringBody rest).map fun (text, rest) => (.str (String.ofList text), rest)
  | '[' :: rest =>
      match inner with
      | some value => sequence value rest
      | none => .error ⟨.nestedTooDeep, '[' :: rest, 1⟩
  | '{' :: rest =>
      match inner with
      | some value => mapping value rest
      | none => .error ⟨.nestedTooDeep, '{' :: rest, 1⟩
  | c :: rest =>
      if c = '-' ∨ c.isDigit then
        (number convert (c :: rest)).map fun (read, rest) => (.num read, rest)
      else .error ⟨.valueExpected, c :: rest, 1⟩

/-- Reads a document in which at most `limit` containers are open at once. -/
def value : Nat → Reader Json
  | 0, text => document convert none text
  | limit + 1, text => document convert (some (value limit)) text

end

/-- Checks that nothing but blanks is left. -/
def finish (text : List Char) : Reading Unit :=
  match skipBlanks text with
  | [] => .ok ()
  | rest => .error ⟨.trailingCharacters, rest, 1⟩

/-- Reads a text that is one document, which `value` reads, and nothing else. -/
def whole (value : Reader Json) (text : List Char) : Reading Json := do
  let (read, rest) ← value text
  finish rest
  return read

/-- The usual limit on containers that are open at once. -/
def nestingLimit : Nat := 127

/-- Reads the document at the front of a text, under the usual limit. -/
def leading : Reader Json :=
  value .scaled nestingLimit

/-- Reads a document under the usual limit. -/
def read (text : String) : Except ReadError Json :=
  (whole leading text.toList).mapError (·.locate text.toList)

/-- Reads a document of any depth, with each number as the nearest one. -/
def readDeep (text : String) : Except ReadError Json :=
  (whole (value .exact text.length) text.toList).mapError (·.locate text.toList)

end Reshape.Json
