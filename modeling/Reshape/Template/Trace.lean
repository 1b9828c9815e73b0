import Reshape.Template

/-!
What a projection skips.

A projection visits the entries of a template in order, depth first: those of an entry's own
template are visited once for each item of a sequence, and once for any other value. The trace
lists the visited entries whose source is absent. It names an entry by its output key and its
source path and holds no data of the document.
-/

namespace Reshape

/-- An entry that was skipped because its source is absent. -/
structure Skip where
  output : Target
  source : Path
deriving DecidableEq

/-- How a skipped entry is reported. -/
def Skip.message (skip : Skip) : String :=
  "skipping `" ++ skip.output.text ++ "`: `" ++ skip.source.text ++ "` is absent"

namespace Template

mutual

/-- The entries that a projection skips, in the order of its visits. -/
def trace : Template → Json → List Skip
  | .fields entries, source => traceEntries entries source
  | .paths _, _ => []

/-- The skips of entries on one value. -/
def traceEntries : List Entry → Json → List Skip
  | [], _ => []
  | entry :: rest, source => traceEntry entry source ++ traceEntries rest source

/-- The skips of one entry: itself, or those inside its template. -/
def traceEntry : Entry → Json → List Skip
  | .scalar output path, source =>
      match path.resolve source with
      | some _ => []
      | none => [⟨output, path⟩]
  | .object output path inner, source =>
      match path.resolve source with
      | some value => value.elements.flatMap fun element => trace inner element
      | none => [⟨output, path⟩]
  | .group output path _ inner, source =>
      match path.resolve source with
      | some value => value.elements.flatMap fun element => trace inner element
      | none => [⟨output, path⟩]

end

end Template

end Reshape
