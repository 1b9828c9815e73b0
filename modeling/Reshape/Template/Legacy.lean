import Reshape.Template.Error

/-!
The legacy layout of templates as documents.

Here the keys of a mapping are source paths. A text is the target of a scalar entry. A mapping is
a grouping entry: its `fields` hold the template by which the items are reshaped, and its `key`,
which may be missing or null, the group key. A group without a key takes the level. Such an entry
has no output key of its own and is given its source path for one.
-/

namespace Reshape.Template

/-- The property that holds the template of a legacy entry. -/
def legacyFieldsProperty : String := "fields"

/-- The property that holds the group key of a legacy entry. -/
def legacyKeyProperty : String := "key"

/-- Reads the group key of a legacy entry. -/
def readLegacyKey (sourceText : String) (properties : List (String × Json)) :
    Except TemplateError Target :=
  match properties.lookup legacyKeyProperty with
  | some (.str text) => Target.parseIn text
  | some .null | none => .ok .level
  | some other => .error (.entry sourceText (.notString legacyKeyProperty other.kind))

mutual

/-- Reads a template from its legacy layout. -/
def ofLegacy : Json → Except TemplateError Template
  | .obj members => do
      let entries ← readLegacyEntries members
      return .fields (← checkLevel entries)
  | .arr items => (readPaths items).map .paths
  | other => .error (.shape (.notLegacyTemplate other.kind))

/-- Reads the entries that members describe, up to the first one at fault. -/
def readLegacyEntries : List (String × Json) → Except TemplateError (List Entry)
  | [] => .ok []
  | (sourceText, node) :: rest => do
      let source ← Path.parseIn sourceText
      return (← readLegacyEntry sourceText source node) :: (← readLegacyEntries rest)

/-- Reads one entry. That its fields are there is looked at first, its key next, and the fields
themselves last. -/
def readLegacyEntry (sourceText : String) (source : Path) : Json → Except TemplateError Entry
  | .str text => do return .scalar (← Target.parseIn text) source
  | .obj properties =>
      match readLegacyFields? properties with
      | none => .error (.entry sourceText (.missingProperty legacyFieldsProperty))
      | some inner => do
          let groupKey ← readLegacyKey sourceText properties
          return .group (.path source) source groupKey (← inner)
  | other => .error (.entry sourceText (.notLegacyEntry other.kind))

/-- Reads the template that properties hold, if they hold one. -/
def readLegacyFields? : List (String × Json) → Option (Except TemplateError Template)
  | [] => none
  | (name, value) :: rest =>
      if name = legacyFieldsProperty then some (ofLegacy value) else readLegacyFields? rest

end

theorem readLegacyFields?_eq (properties : List (String × Json)) :
    readLegacyFields? properties = (properties.lookup legacyFieldsProperty).map ofLegacy := by
  induction properties with
  | nil => rfl
  | cons property rest ih => grind [readLegacyFields?]

end Reshape.Template
