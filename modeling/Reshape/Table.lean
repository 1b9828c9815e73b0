import Reshape.Json.Printer
import Reshape.Text.Coloured

/-!
Tables of two columns: the keys of a mapping and their values.

A cell may have several lines, and a row is as high as the higher of its two cells. Keys are
filled up with blanks to the width of the widest line of any key, in columns of a terminal; values
are not filled.
-/

namespace Reshape.Table

mutual

/-- The text of a value in a table: a string as it is, a dash for null, and the items of a
sequence one on a line. Mappings, numbers and truth values are written without blanks. -/
def cell : Json → List Char
  | .str text => text.toList
  | .null => ['-']
  | .arr items => cells items
  | .bool value => (Json.bool value).compactText
  | .num value => (Json.num value).compactText
  | .obj members => (Json.obj members).compactText

/-- The texts of items with line breaks between them. -/
def cells : List Json → List Char
  | [] => []
  | [item] => cell item
  | item :: rest => cell item ++ '\n' :: cells rest

end

/-- A line without the carriage return at its end. -/
def withoutReturn (line : List Char) : List Char :=
  if line.getLast? = some '\r' then line.dropLast else line

/-- The lines of a text. A line break ends a line, with the carriage return before it, so that
there is no further line behind one at the very end. -/
def lines (text : List Char) : List (List Char) :=
  let pieces := text.splitOn '\n'
  let last := pieces.getLastD []
  pieces.dropLast.map withoutReturn ++ if last.isEmpty then [] else [last]

/-- One line of a row, with the key filled up to a width. -/
def line (width : Nat) (key value : List Char) : List Char :=
  ' ' :: key ++ List.replicate (width - Text.colouredWidth key) ' ' ++
    ' ' :: ' ' :: value ++ [' ', '\n']

/-- The lines of a row: at least one, and as many as the higher cell has. -/
def row (width : Nat) (key value : List (List Char)) : List Char :=
  let height := max 1 (max key.length value.length)
  (List.range height).flatMap fun i => line width (key.getD i []) (value.getD i [])

/-- The width of the widest line. -/
def widest (texts : List (List Char)) : Nat :=
  (texts.map Text.colouredWidth).foldl max 0

/-- The table of a mapping. -/
def render (members : List (String × Json)) : String :=
  let width := widest (members.flatMap fun member => lines member.1.toList)
  String.ofList
    (members.flatMap fun member => row width (lines member.1.toList) (lines (cell member.2)))

end Reshape.Table
