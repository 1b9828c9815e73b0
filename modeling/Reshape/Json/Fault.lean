/-!
What can be wrong with a text that should be a document, and where.

A reader that meets a fault stops with the text still unread. `Stop.locate` turns that into a line
and a column: lines count from one, and the column is the number of bytes since the last line
break. Most faults are placed on the byte that shows them, which is then counted in.
-/

namespace Reshape.Json

/-- A fault in the text of a document. -/
inductive Fault where
  | valueCutOff
  | mappingCutOff
  | sequenceCutOff
  | stringCutOff
  | valueExpected
  | wordExpected
  | colonExpected
  | sequenceNotContinued
  | mappingNotContinued
  | trailingComma
  | keyNotString
  | invalidNumber
  | numberOutOfRange
  | controlCharacter
  | invalidEscape
  | surrogateNotPaired
  | surrogateAlone
  | nestedTooDeep
  | trailingCharacters
deriving DecidableEq

/-- The wording of a fault. -/
def Fault.message : Fault → String
  | .valueCutOff => "EOF while parsing a value"
  | .mappingCutOff => "EOF while parsing an object"
  | .sequenceCutOff => "EOF while parsing a list"
  | .stringCutOff => "EOF while parsing a string"
  | .valueExpected => "expected value"
  | .wordExpected => "expected ident"
  | .colonExpected => "expected `:`"
  | .sequenceNotContinued => "expected `,` or `]`"
  | .mappingNotContinued => "expected `,` or `\x7d`"
  | .trailingComma => "trailing comma"
  | .keyNotString => "key must be a string"
  | .invalidNumber => "invalid number"
  | .numberOutOfRange => "number out of range"
  | .controlCharacter => "control character (\\u0000-\\u001F) found while parsing a string"
  | .invalidEscape => "invalid escape"
  | .surrogateNotPaired => "unexpected end of hex escape"
  | .surrogateAlone => "lone leading surrogate in hex escape"
  | .nestedTooDeep => "recursion limit exceeded"
  | .trailingCharacters => "trailing characters"

/-- A fault with its line and column. -/
structure ReadError where
  fault : Fault
  line : Nat
  column : Nat
deriving DecidableEq

/-- The wording of a fault with its place. -/
def ReadError.message (e : ReadError) : String :=
  e.fault.message ++ " at line " ++ toString e.line ++ " column " ++ toString e.column

/-- A reader's stop: the fault, the text that was still unread, and how many bytes of that text
belong to the fault. -/
structure Stop where
  fault : Fault
  rest : List Char
  past : Nat

/-- The number of bytes of a text. -/
def byteCount : List Char → Nat
  | [] => 0
  | c :: rest => c.utf8Size + byteCount rest

/-- The line and column behind the first `offset` bytes of a text, counting on from a line and a
column. An offset past the end is the end. -/
def lineAndColumn (line column : Nat) : List Char → Nat → Nat × Nat
  | [], _ => (line, column)
  | c :: rest, offset =>
      if offset < c.utf8Size then (line, column + offset)
      else if c = '\n' then lineAndColumn (line + 1) 0 rest (offset - 1)
      else lineAndColumn line (column + c.utf8Size) rest (offset - c.utf8Size)

/-- The place of a stop within the whole text. -/
def Stop.locate (stop : Stop) (text : List Char) : ReadError :=
  let (line, column) :=
    lineAndColumn 1 0 text (byteCount text - byteCount stop.rest + stop.past)
  ⟨stop.fault, line, column⟩

end Reshape.Json
