import Reshape.Json.Merge
import Reshape.Template

/-!
Projection: reshaping a document as a template describes.

Each entry contributes a fragment, its value put at its target, unless its source is absent; the
result of a template of entries is the merge of these fragments, in order, into the empty mapping.
An entry with a template of its own projects the items of a sequence one by one and any other
value as a whole. Projection never fails and looks at the source only to follow paths and to tell
sequences apart.
-/

namespace Reshape.Template

mutual

/-- The result of a template on a source document. -/
def project : Template → Json → Json
  | .fields entries, source => (fragments entries source).foldl Json.merge (.obj [])
  | .paths items, source => .arr (items.filterMap (·.resolve source))

/-- The fragments that entries contribute, in order. -/
def fragments : List Entry → Json → List Json
  | [], _ => []
  | entry :: rest, source =>
      match contribution? entry source with
      | some value => entry.target.place value :: fragments rest source
      | none => fragments rest source

/-- The value that an entry contributes, if its source is present. -/
def contribution? : Entry → Json → Option Json
  | .scalar _ path, source => path.resolve source
  | .object _ path inner, source =>
      (path.resolve source).map (Json.onEach fun value => project inner value)
  | .group _ path _ inner, source =>
      (path.resolve source).map (Json.onEach fun value => project inner value)

end

/-- The result of a template on each of some items, put at a target as a sequence. -/
def projectItems (t : Template) (target : Target) (items : List Json) : Json :=
  target.place (.arr (items.map t.project))

theorem fragments_eq_filterMap (entries : List Entry) (source : Json) :
    fragments entries source =
      entries.filterMap fun entry => (contribution? entry source).map entry.target.place := by
  induction entries with
  | nil => rfl
  | cons entry rest ih =>
      rw [fragments, List.filterMap_cons, ih]
      cases contribution? entry source <;> rfl

end Reshape.Template
