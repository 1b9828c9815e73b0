import Reshape.Json

/-!
Merging: how two documents written to one place become one.

Two mappings are united key by key, two sequences of mappings position by position, and any two
other sequences are put one behind the other. Between all else the second document, the
fragment, wins. The recursion follows the fragment.
-/

namespace Reshape.Json

mutual

/-- Merges a fragment into a base. -/
def merge (base : Json) : Json → Json
  | .obj fragment =>
      match base with
      | .obj members => .obj (mergeMembers members fragment)
      | _ => .obj fragment
  | .arr fragment =>
      match base with
      | .arr items =>
          if items.all isMapping && fragment.all isMapping then .arr (mergeItems items fragment)
          else .arr (items ++ fragment)
      | _ => .arr fragment
  | .null => .null
  | .bool value => .bool value
  | .num value => .num value
  | .str text => .str text

/-- Merges the members of a fragment one after the other, each into the value that its key has by
then. -/
def mergeMembers (base : List (String × Json)) : List (String × Json) → List (String × Json)
  | [] => base
  | (key, value) :: rest =>
      mergeMembers (amend key (fun old => old.elim value fun held => merge held value) base) rest

/-- Merges sequences position by position. What the longer one has left over is kept. -/
def mergeItems : List Json → List Json → List Json
  | base, [] => base
  | [], fragment => fragment
  | held :: base, value :: fragment => merge held value :: mergeItems base fragment

end

end Reshape.Json
