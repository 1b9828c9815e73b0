import Reshape.Template.Error

/-!
The canonical layout of templates as documents.

A sequence of texts is a list of paths. A mapping has an entry for each member, in order, with the
key for its output: a text is the source of a scalar entry, and a mapping with the properties
`sourcePath`, `fields` and, for a grouping entry, `groupKey` is one that reshapes. `ofJson` reads
this layout and `toJson` writes it.
-/

namespace Reshape.Template

/-- The property that holds an entry's source. -/
def sourceProperty : String := "sourcePath"

/-- The property that holds an entry's own template. -/
def fieldsProperty : String := "fields"

/-- The property that holds an entry's group key. -/
def groupProperty : String := "groupKey"

/-- The first property that no entry has. -/
def unknownProperty? (properties : List (String × Json)) : Option String :=
  (properties.map Prod.fst).find?
    (· ∉ [sourceProperty, fieldsProperty, groupProperty])

/-- Reads the source of an entry. -/
def readSource (key : String) (properties : List (String × Json)) : Except TemplateError Path :=
  match properties.lookup sourceProperty with
  | some (.str text) => Path.parseIn text
  | some other => .error (.entry key (.notString sourceProperty other.kind))
  | none => .error (.entry key (.missingProperty sourceProperty))

/-- Reads the group key of an entry, if it has one. -/
def readGroupKey (key : String) (properties : List (String × Json)) :
    Except TemplateError (Option Target) :=
  match properties.lookup groupProperty with
  | some (.str text) => (Target.parseIn text).map some
  | some other => .error (.entry key (.notString groupProperty other.kind))
  | none => .ok none

mutual

/-- Reads a template from its canonical layout. -/
def ofJson : Json → Except TemplateError Template
  | .obj members => do
      let entries ← readEntries members
      return .fields (← checkLevel entries)
  | .arr items => (readPaths items).map .paths
  | other => .error (.shape (.notTemplate other.kind))

/-- Reads the entries that members describe, up to the first one at fault. -/
def readEntries : List (String × Json) → Except TemplateError (List Entry)
  | [] => .ok []
  | (key, node) :: rest => do
      let output ← Target.parseIn key
      return (← readEntry key output node) :: (← readEntries rest)

/-- Reads one entry. Its properties are looked at in turn: unknown ones, the source, the fields,
and the group key last. -/
def readEntry (key : String) (output : Target) : Json → Except TemplateError Entry
  | .str text => (Path.parseIn text).map (.scalar output)
  | .obj properties =>
      match unknownProperty? properties with
      | some name => .error (.entry key (.unknownProperty name))
      | none => do
          let source ← readSource key properties
          let inner ←
            (readFields? properties).getD (.error (.entry key (.missingProperty fieldsProperty)))
          match ← readGroupKey key properties with
          | none => return .object output source inner
          | some groupKey => return .group output source groupKey inner
  | other => .error (.entry key (.notEntry other.kind))

/-- Reads the template that properties hold, if they hold one. -/
def readFields? : List (String × Json) → Option (Except TemplateError Template)
  | [] => none
  | (name, value) :: rest => if name = fieldsProperty then some (ofJson value) else readFields? rest

end

mutual

/-- Writes a template in its canonical layout. Of entries with equal output keys the last one is
written, in the place of the first. -/
def toJson : Template → Json
  | .fields entries => .obj (writeEntries [] entries)
  | .paths items => .arr (items.map fun path => .str path.text)

/-- Writes entries one after the other to the members held already. -/
def writeEntries (held : List (String × Json)) : List Entry → List (String × Json)
  | [] => held
  | entry :: rest => writeEntries (Json.write entry.output.text (writeNode entry) held) rest

/-- Writes what stands under the output key of an entry. -/
def writeNode : Entry → Json
  | .scalar _ source => .str source.text
  | .object _ source inner =>
      .obj [(sourceProperty, .str source.text), (fieldsProperty, toJson inner)]
  | .group _ source groupKey inner =>
      .obj [(sourceProperty, .str source.text), (groupProperty, .str groupKey.text),
        (fieldsProperty, toJson inner)]

end

theorem readFields?_eq (properties : List (String × Json)) :
    readFields? properties = (properties.lookup fieldsProperty).map ofJson := by
  induction properties with
  | nil => rfl
  | cons property rest ih => grind [readFields?]

end Reshape.Template
