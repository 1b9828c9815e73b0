import Reshape.Target

/-!
Templates: descriptions of a result in terms of the paths of a source document.

A template lists entries, which build a mapping, or bare paths, which build a sequence. An entry
copies the value at its source path, or reshapes it by a template of its own; a grouping entry is
of the second sort and names its target apart from its output key, so that several of them may
feed one place.
-/

namespace Reshape

mutual

/-- A description of a result: entries of a mapping, or paths to the items of a sequence. -/
inductive Template where
  | fields (entries : List Entry)
  | paths (paths : List Path)

/-- One entry of a template. A scalar entry copies the value at its source; the others reshape
it, or its items when it is a sequence. -/
inductive Entry where
  | scalar (output : Target) (source : Path)
  | object (output : Target) (source : Path) (fields : Template)
  | group (output : Target) (source : Path) (groupKey : Target) (fields : Template)

end

namespace Entry

/-- The key under which an entry stands in its template. -/
def output : Entry → Target
  | .scalar output _ | .object output _ _ | .group output _ _ _ => output

/-- The path whose value an entry reads. -/
def source : Entry → Path
  | .scalar _ source | .object _ source _ | .group _ source _ _ => source

/-- Where the value of an entry goes: to the group key if it has one, and else to the output
key. -/
def target : Entry → Target
  | .scalar output _ | .object output _ _ => output
  | .group _ _ groupKey _ => groupKey

/-- The template by which an entry reshapes the value at its source. -/
def fields? : Entry → Option Template
  | .scalar _ _ => none
  | .object _ _ fields | .group _ _ _ fields => some fields

end Entry

namespace Template

/-- The number of entries or paths. -/
def length : Template → Nat
  | .fields entries => entries.length
  | .paths items => items.length

/-- Whether there is neither an entry nor a path. -/
def isEmpty (t : Template) : Bool :=
  t.length == 0

mutual

/-- Whether two templates are the same. -/
def same : Template → Template → Bool
  | .fields a, .fields b => sameEntries a b
  | .paths a, .paths b => a == b
  | _, _ => false

/-- Whether two lists hold the same entries. -/
def sameEntries : List Entry → List Entry → Bool
  | [], [] => true
  | a :: as, b :: bs => sameEntry a b && sameEntries as bs
  | _, _ => false

/-- Whether two entries are the same. -/
def sameEntry : Entry → Entry → Bool
  | .scalar o s, .scalar o' s' => o == o' && s == s'
  | .object o s t, .object o' s' t' => o == o' && s == s' && same t t'
  | .group o s k t, .group o' s' k' t' => o == o' && s == s' && k == k' && same t t'
  | _, _ => false

end

mutual

theorem same_iff : ∀ a b : Template, same a b = true ↔ a = b
  | .fields a, b => by cases b <;> simp [same, sameEntries_iff a]
  | .paths _, b => by cases b <;> simp [same]

theorem sameEntries_iff : ∀ a b : List Entry, sameEntries a b = true ↔ a = b
  | [], b => by cases b <;> simp [sameEntries]
  | x :: a, b => by cases b <;> simp [sameEntries, sameEntry_iff x, sameEntries_iff a]

theorem sameEntry_iff : ∀ a b : Entry, sameEntry a b = true ↔ a = b
  | .scalar _ _, b => by cases b <;> simp [sameEntry]
  | .object _ _ t, b => by cases b <;> simp [sameEntry, same_iff t, and_assoc]
  | .group _ _ _ t, b => by cases b <;> simp [sameEntry, same_iff t, and_assoc]

end

instance : DecidableEq Template := fun a b => decidable_of_iff _ (same_iff a b)

instance : DecidableEq Entry := fun a b => decidable_of_iff _ (sameEntry_iff a b)

end Template

end Reshape
