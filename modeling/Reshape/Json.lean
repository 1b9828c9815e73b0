import Reshape.Number

/-!
Documents: values built from scalars, sequences and mappings.

A mapping is a list of members in the order in which its keys were first written. `amend` changes
the value at one key or adds the key at the end, so a key keeps its place for as long as the
mapping is built up; `lookup_amend` and `keys_amend` say both halves of that. `descend?` follows
keys into nested mappings, and `nest` builds the mappings that such keys describe.
-/

namespace Reshape

/-- A document. The members of a mapping stand in the order of their keys' first writing. -/
inductive Json where
  | null
  | bool (value : Bool)
  | num (value : Number)
  | str (text : String)
  | arr (items : List Json)
  | obj (members : List (String × Json))

namespace Json

/-! ### Equality -/

mutual

/-- Whether two documents are the same, the order of members included. -/
def same : Json → Json → Bool
  | .null, .null => true
  | .bool a, .bool b => a == b
  | .num a, .num b => a == b
  | .str a, .str b => a == b
  | .arr a, .arr b => sameItems a b
  | .obj a, .obj b => sameMembers a b
  | _, _ => false

/-- Whether two sequences hold the same documents. -/
def sameItems : List Json → List Json → Bool
  | [], [] => true
  | a :: as, b :: bs => same a b && sameItems as bs
  | _, _ => false

/-- Whether two mappings hold the same members in the same order. -/
def sameMembers : List (String × Json) → List (String × Json) → Bool
  | [], [] => true
  | (k, a) :: as, (l, b) :: bs => k == l && same a b && sameMembers as bs
  | _, _ => false

end

mutual

theorem same_iff : ∀ a b : Json, same a b = true ↔ a = b
  | .null, b => by cases b <;> simp [same]
  | .bool _, b => by cases b <;> simp [same]
  | .num _, b => by cases b <;> simp [same]
  | .str _, b => by cases b <;> simp [same]
  | .arr a, b => by cases b <;> simp [same, sameItems_iff a]
  | .obj a, b => by cases b <;> simp [same, sameMembers_iff a]

theorem sameItems_iff : ∀ a b : List Json, sameItems a b = true ↔ a = b
  | [], b => by cases b <;> simp [sameItems]
  | x :: a, b => by cases b <;> simp [sameItems, same_iff x, sameItems_iff a]

theorem sameMembers_iff : ∀ a b : List (String × Json), sameMembers a b = true ↔ a = b
  | [], b => by cases b <;> simp [sameMembers]
  | (k, x) :: a, [] => by simp [sameMembers]
  | (k, x) :: a, (l, y) :: b => by
      simp [sameMembers, same_iff x, sameMembers_iff a]

end

instance : DecidableEq Json := fun a b => decidable_of_iff _ (same_iff a b)

/-! ### Kinds -/

/-- Whether a document is a mapping. -/
def isMapping : Json → Bool
  | .obj _ => true
  | _ => false

/-- The six kinds of documents. -/
inductive Kind where
  | null
  | boolean
  | number
  | string
  | sequence
  | mapping
deriving DecidableEq

/-- The kind of a document. -/
def kind : Json → Kind
  | .null => .null
  | .bool _ => .boolean
  | .num _ => .number
  | .str _ => .string
  | .arr _ => .sequence
  | .obj _ => .mapping

/-- The name of a kind, with its article. -/
def Kind.name : Kind → String
  | .null => "null"
  | .boolean => "a boolean"
  | .number => "a number"
  | .string => "a string"
  | .sequence => "an array"
  | .mapping => "an object"

/-! ### Items -/

/-- The items of a sequence, and any other value alone. -/
def elements : Json → List Json
  | .arr items => items
  | value => [value]

/-- Applies a function to each item of a sequence, and to any other value as a whole. -/
def onEach (change : Json → Json) : Json → Json
  | .arr items => .arr (items.map change)
  | value => change value

/-! ### Members -/

/-- Gives the value at `key` a new value computed from the old one, and adds `key` at the end
when no member has it. -/
def amend (key : String) (change : Option Json → Json) :
    List (String × Json) → List (String × Json)
  | [] => [(key, change none)]
  | (k, v) :: rest =>
      if k = key then (k, change (some v)) :: rest else (k, v) :: amend key change rest

/-- Writes a value at a key: in the key's place when it has one, and else at the end. -/
def write (key : String) (value : Json) (members : List (String × Json)) :
    List (String × Json) :=
  amend key (fun _ => value) members

theorem lookup_amend (key : String) (change : Option Json → Json) (other : String)
    (members : List (String × Json)) :
    (amend key change members).lookup other =
      if other = key then some (change (members.lookup key)) else members.lookup other := by
  induction members with
  | nil => grind [amend]
  | cons member rest ih => grind [amend]

/-- A key that is already there keeps its place, and a new one goes to the end. -/
theorem keys_amend (key : String) (change : Option Json → Json)
    (members : List (String × Json)) :
    (amend key change members).map Prod.fst =
      members.map Prod.fst ++ if key ∈ members.map Prod.fst then [] else [key] := by
  induction members with
  | nil => simp [amend]
  | cons member rest ih =>
      obtain ⟨k, v⟩ := member
      by_cases hk : k = key
      · simp [amend, hk]
      · have hk' : key ≠ k := fun h => hk h.symm
        simp only [amend, hk, if_false, List.map_cons, ih, List.cons_append, List.mem_cons, hk',
          false_or]

/-! ### Keys in sequence -/

/-- The value of a mapping at a key. -/
def field? (key : String) : Json → Option Json
  | .obj members => members.lookup key
  | _ => none

/-- Follows keys into nested mappings. Anything but a mapping on the way, a sequence included,
ends the search; the value at the end may be of any kind. -/
def descend? : List String → Json → Option Json
  | [], value => some value
  | key :: keys, value => (value.field? key).bind (descend? keys)

/-- Wraps a value in one mapping for each key, the first key outermost. -/
def nest : List String → Json → Json
  | [], value => value
  | key :: keys, value => .obj [(key, nest keys value)]

theorem descend?_nest (keys : List String) (value : Json) :
    descend? keys (nest keys value) = some value := by
  induction keys with
  | nil => rfl
  | cons key keys ih => simp [descend?, nest, field?, ih]

end Json

end Reshape
