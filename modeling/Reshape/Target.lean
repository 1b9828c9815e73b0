import Reshape.Path

/-!
Targets: where the value of a template entry goes in the result.

A target is a path, or the level of the entry as a whole, written `-`. The text `-` always means
the level, so the path with that one segment cannot be read back as a target.
-/

namespace Reshape

/-- Where a value goes: to a path, or in place of the whole level. -/
inductive Target where
  | path (path : Path)
  | level
deriving DecidableEq

namespace Target

/-- The text that stands for the whole level. -/
def levelText : String := "-"

/-- Reads a target. -/
def parse (text : String) : Except PathError Target :=
  if text = levelText then .ok .level else (Path.parse text).map .path

/-- How a target is written. -/
def text : Target → String
  | .path p => p.text
  | .level => levelText

/-- Whether a target is the whole level. -/
def isLevel : Target → Bool
  | .path _ => false
  | .level => true

/-- The document that has a value at a target and nothing else. -/
def place (value : Json) : Target → Json
  | .path p => p.wrap value
  | .level => value

end Target

end Reshape
