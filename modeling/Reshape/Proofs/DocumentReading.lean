import Reshape.Json.Reader
import Reshape.Proofs.DistinctKeys
import Reshape.Proofs.PathText

/-!
What documents are read.

A reader under a limit opens no more containers at once than the limit allows, and it writes the
members of a mapping one after the other, so that no key comes twice. `value_induction` leads from
what stands in a container to the container, with one less for the limit on the way in. Both facts
follow: a document that is read has distinct keys (`keysDistinct_of_read`), and its depth is within
the limit (`depth_le_of_read`).
-/

namespace Reshape.Json

/-- A document is a sequence or a mapping with distinct keys, and something holds of all that
stands in it. -/
inductive HoldsInside (holds : Json → Prop) : Json → Prop
  | items {items : List Json} (each : ∀ item ∈ items, holds item) : HoldsInside holds (.arr items)
  | members {members : List (String × Json)} (keys : (members.map Prod.fst).Nodup)
      (each : ∀ member ∈ members, holds member.2) : HoldsInside holds (.obj members)

section

variable {value : Reader Json} {holds : Json → Prop}
  (hvalue : ∀ {text read rest}, value text = .ok (read, rest) → holds read)

include hvalue

theorem forall_mem_of_items {turns : Nat} {text rest : List Char} {read : List Json}
    (h : items value turns text = .ok (read, rest)) : ∀ item ∈ read, holds item := by
  induction turns generalizing text rest read with
  | zero => simp [items] at h
  | succ turns ih =>
      unfold items at h
      obtain ⟨⟨item, rest'⟩, hitem, h⟩ := bind_eq_ok.mp h
      dsimp only at h
      split at h
      · cases h
      · cases h
        simpa using hvalue hitem
      · split at h
        · cases h
        · obtain ⟨⟨more, rest''⟩, hmore, h⟩ := bind_eq_ok.mp h
          cases h
          exact List.forall_mem_cons.mpr ⟨hvalue hitem, ih hmore⟩
      · cases h

theorem holdsInside_of_members {turns : Nat} {held read : List (String × Json)}
    {text rest : List Char} (hkeys : (held.map Prod.fst).Nodup)
    (hheld : ∀ member ∈ held, holds member.2)
    (h : members value turns held text = .ok (read, rest)) : HoldsInside holds (.obj read) := by
  induction turns generalizing held text with
  | zero => simp [members] at h
  | succ turns ih =>
      unfold members at h
      obtain ⟨⟨name, rest₁⟩, -, h⟩ := bind_eq_ok.mp h
      obtain ⟨rest₂, -, h⟩ := bind_eq_ok.mp h
      obtain ⟨⟨item, rest₃⟩, hitem, h⟩ := bind_eq_ok.mp h
      have hkeys' : ((write name item held).map Prod.fst).Nodup := nodup_keys_amend name _ hkeys
      have hheld' : ∀ member ∈ write name item held, holds member.2 :=
        forall_mem_amend (hvalue hitem) hheld
      dsimp only at h
      split at h
      · cases h
      · cases h
        exact .members hkeys' hheld'
      · split at h
        · cases h
        · exact ih hkeys' hheld' h
      · cases h

theorem holdsInside_of_sequence {text rest : List Char} {read : Json}
    (h : sequence value text = .ok (read, rest)) : HoldsInside holds read := by
  unfold sequence at h
  split at h
  · cases h
  · cases h
    exact .items (by simp)
  · obtain ⟨⟨items, rest'⟩, hitems, h⟩ := map_eq_ok.mp h
    cases h
    exact .items (forall_mem_of_items hvalue hitems)

theorem holdsInside_of_mapping {text rest : List Char} {read : Json}
    (h : mapping value text = .ok (read, rest)) : HoldsInside holds read := by
  unfold mapping at h
  split at h
  · cases h
  · cases h
    exact .members (by simp) (by simp)
  · obtain ⟨⟨members, rest'⟩, hmembers, h⟩ := map_eq_ok.mp h
    cases h
    exact holdsInside_of_members hvalue (by simp) (by simp) hmembers

end

theorem holdsInside_of_document {convert : Conversion} {inner : Option (Reader Json)}
    {holds : Json → Prop}
    (hinner : ∀ value, inner = some value →
      ∀ {text read rest}, value text = .ok (read, rest) → holds read)
    {text rest : List Char} {read : Json} (h : document convert inner text = .ok (read, rest)) :
    (read.kind ≠ .sequence ∧ read.kind ≠ .mapping) ∨ inner.isSome ∧ HoldsInside holds read := by
  unfold document at h
  split at h
  · cases h
  · obtain ⟨_, -, h⟩ := map_eq_ok.mp h
    cases h
    simp [kind]
  · obtain ⟨_, -, h⟩ := map_eq_ok.mp h
    cases h
    simp [kind]
  · obtain ⟨_, -, h⟩ := map_eq_ok.mp h
    cases h
    simp [kind]
  · obtain ⟨_, -, h⟩ := map_eq_ok.mp h
    cases h
    simp [kind]
  · split at h
    · exact Or.inr ⟨rfl, holdsInside_of_sequence (hinner _ rfl) h⟩
    · cases h
  · split at h
    · exact Or.inr ⟨rfl, holdsInside_of_mapping (hinner _ rfl) h⟩
    · cases h
  · split at h
    · obtain ⟨_, -, h⟩ := map_eq_ok.mp h
      cases h
      simp [kind]
    · cases h

/-- Induction over what is read under a limit on the containers that are open at once. -/
theorem value_induction (holds : Nat → Json → Prop)
    (scalar : ∀ limit value, value.kind ≠ .sequence → value.kind ≠ .mapping → holds limit value)
    (inside : ∀ limit value, HoldsInside (holds limit) value → holds (limit + 1) value)
    {convert : Conversion} {limit : Nat} {text rest : List Char} {read : Json}
    (h : value convert limit text = .ok (read, rest)) : holds limit read := by
  induction limit generalizing text rest read with
  | zero =>
      rw [value] at h
      have hnone : ∀ inner, (none : Option (Reader Json)) = some inner →
          ∀ {text read rest}, inner text = .ok (read, rest) → holds 0 read := by
        simp
      rcases holdsInside_of_document hnone h with ⟨hsequence, hmapping⟩ | ⟨⟨⟩, -⟩
      exact scalar 0 read hsequence hmapping
  | succ limit ih =>
      rw [value] at h
      have hinner : ∀ inner, some (value convert limit) = some inner →
          ∀ {text read rest}, inner text = .ok (read, rest) → holds limit read := by
        rintro _ ⟨⟩ _ _ _ hread
        exact ih hread
      rcases holdsInside_of_document hinner h with ⟨hsequence, hmapping⟩ | ⟨-, hinside⟩
      · exact scalar (limit + 1) read hsequence hmapping
      · exact inside limit read hinside

theorem exists_leading_of_read {text : String} {read : Json} (h : Json.read text = .ok read) :
    ∃ rest, leading text.toList = .ok (read, rest) := by
  obtain ⟨⟨_, rest⟩, hvalue, h⟩ := bind_eq_ok.mp (mapError_eq_ok.mp h)
  obtain ⟨_, -, h⟩ := bind_eq_ok.mp h
  cases h
  exact ⟨rest, hvalue⟩

/-! ### Depth -/

mutual

/-- The most containers of a document that stand one inside the other. -/
def depth : Json → Nat
  | .arr items => depthItems items + 1
  | .obj members => depthMembers members + 1
  | _ => 0

def depthItems : List Json → Nat
  | [] => 0
  | item :: items => max (depth item) (depthItems items)

def depthMembers : List (String × Json) → Nat
  | [] => 0
  | (_, value) :: members => max (depth value) (depthMembers members)

end

theorem depth_arr_le {items : List Json} {limit : Nat} :
    depth (.arr items) ≤ limit + 1 ↔ ∀ item ∈ items, item.depth ≤ limit := by
  rw [depth, Nat.add_le_add_iff_right]
  induction items with
  | nil => simp [depthItems]
  | cons item items ih => rw [depthItems, Nat.max_le, ih, List.forall_mem_cons]

theorem depth_obj_le {members : List (String × Json)} {limit : Nat} :
    depth (.obj members) ≤ limit + 1 ↔ ∀ member ∈ members, member.2.depth ≤ limit := by
  rw [depth, Nat.add_le_add_iff_right]
  induction members with
  | nil => simp [depthMembers]
  | cons member members ih => rw [depthMembers, Nat.max_le, ih, List.forall_mem_cons]

theorem depth_lt_of_mem {members : List (String × Json)} {member : String × Json}
    (hmember : member ∈ members) : member.2.depth < depth (.obj members) :=
  Nat.lt_succ_of_le (depth_obj_le.mp (Nat.le_refl _) member hmember)

/-- A document that is read from a text is no deeper than the usual limit. -/
theorem depth_le_of_read {text : String} {read : Json} (h : Json.read text = .ok read) :
    read.depth ≤ nestingLimit := by
  obtain ⟨rest, hvalue⟩ := exists_leading_of_read h
  refine value_induction (fun limit read => read.depth ≤ limit) ?scalar ?inside hvalue
  case scalar =>
    intro limit read hsequence hmapping
    cases read with
    | arr items => exact (hsequence rfl).elim
    | obj members => exact (hmapping rfl).elim
    | _ => exact Nat.zero_le limit
  case inside =>
    rintro limit _ (each | ⟨-, each⟩)
    · exact depth_arr_le.mpr each
    · exact depth_obj_le.mpr each

/-- A document that is read from a text has no key twice. -/
theorem keysDistinct_of_read {text : String} {read : Json} (h : Json.read text = .ok read) :
    read.keysDistinct := by
  obtain ⟨rest, hvalue⟩ := exists_leading_of_read h
  refine value_induction (fun _ read => read.keysDistinct) ?scalar ?inside hvalue
  case scalar =>
    intro _ read hsequence hmapping
    cases read with
    | arr items => exact (hsequence rfl).elim
    | obj members => exact (hmapping rfl).elim
    | _ => rfl
  case inside =>
    rintro _ _ (each | ⟨keys, each⟩)
    · exact keysDistinct_arr.mpr each
    · exact keysDistinct_obj.mpr ⟨keys, each⟩

end Reshape.Json
