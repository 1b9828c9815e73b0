import Reshape.Json

/-!
How documents are written as text, closely or with one line per member.

`Json.compact` writes no blanks at all. `Json.pretty` gives every item and member a line of its
own, indented by two blanks a level, and keeps empty sequences and mappings closed up. Both write
strings by `quoted`: of all characters only the quotation mark, the backslash and the controls
below the blank are escaped, so text outside ASCII stays as it is.
-/

namespace Reshape.Json

/-- The digits of hexadecimal numbers, in lower case. -/
def hexDigit (n : Nat) : Char :=
  Nat.digitChar n

/-- The escape of a character inside a string, if it must be escaped. -/
def escaped (c : Char) : List Char :=
  if c = '"' then ['\\', '"']
  else if c = '\\' then ['\\', '\\']
  else if c = '\x08' then ['\\', 'b']
  else if c = '\x0c' then ['\\', 'f']
  else if c = '\n' then ['\\', 'n']
  else if c = '\r' then ['\\', 'r']
  else if c = '\t' then ['\\', 't']
  else if c.toNat < 0x20 then
    ['\\', 'u', '0', '0', hexDigit (c.toNat / 16), hexDigit (c.toNat % 16)]
  else [c]

/-- A string between quotation marks. -/
def quoted (text : String) : List Char :=
  '"' :: text.toList.flatMap escaped ++ ['"']

/-- The text of a scalar, and nothing for a container. -/
def scalarText : Json → List Char
  | .null => "null".toList
  | .bool true => "true".toList
  | .bool false => "false".toList
  | .num value => value.text
  | .str text => quoted text
  | .arr _ | .obj _ => []

mutual

/-- Writes a document without blanks. -/
def compactText : Json → List Char
  | .arr items => '[' :: compactItems items ++ [']']
  | .obj members => '{' :: compactMembers members ++ ['}']
  | scalar => scalarText scalar

/-- Writes items with commas between them. -/
def compactItems : List Json → List Char
  | [] => []
  | [item] => compactText item
  | item :: rest => compactText item ++ ',' :: compactItems rest

/-- Writes members with commas between them. -/
def compactMembers : List (String × Json) → List Char
  | [] => []
  | [(key, value)] => quoted key ++ ':' :: compactText value
  | (key, value) :: rest => quoted key ++ ':' :: compactText value ++ ',' :: compactMembers rest

end

/-- A new line, indented for a level. -/
def newLine (level : Nat) : List Char :=
  '\n' :: List.replicate (2 * level) ' '

mutual

/-- Writes a document that stands at a level of indentation. -/
def prettyText (level : Nat) : Json → List Char
  | .arr [] => ['[', ']']
  | .arr (item :: rest) =>
      '[' :: newLine (level + 1) ++ prettyItems (level + 1) (item :: rest) ++
        newLine level ++ [']']
  | .obj [] => ['{', '}']
  | .obj (member :: rest) =>
      '{' :: newLine (level + 1) ++ prettyMembers (level + 1) (member :: rest) ++
        newLine level ++ ['}']
  | scalar => scalarText scalar

/-- Writes items, each but the first after a comma and a new line. -/
def prettyItems (level : Nat) : List Json → List Char
  | [] => []
  | [item] => prettyText level item
  | item :: rest => prettyText level item ++ ',' :: newLine level ++ prettyItems level rest

/-- Writes members, each but the first after a comma and a new line. -/
def prettyMembers (level : Nat) : List (String × Json) → List Char
  | [] => []
  | [(key, value)] => quoted key ++ ':' :: ' ' :: prettyText level value
  | (key, value) :: rest =>
      quoted key ++ ':' :: ' ' :: prettyText level value ++ ',' :: newLine level ++
        prettyMembers level rest

end

/-- A document on one line, without blanks. -/
def compact (value : Json) : String :=
  String.ofList (compactText value)

/-- A document with one line for each item and member. -/
def pretty (value : Json) : String :=
  String.ofList (prettyText 0 value)

end Reshape.Json
