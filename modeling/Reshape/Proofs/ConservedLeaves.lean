import Mathlib.Algebra.Order.Group.Multiset
import Reshape.Proofs.DistinctKeys

/-!
The scalars that a merge keeps.

The leaves of a document are its scalars, counted as often as they occur. A merge has all leaves of
the fragment, and no leaf more often than the base and the fragment together (`leaves_merge`). Of
the base alone a merge may lose leaves, namely where the fragment has a scalar or something of
another kind. A fragment with a key twice could overwrite itself; no document that is read has one.
-/

namespace Reshape.Json

mutual

/-- The scalars in a document, each as often as it occurs. -/
def leaves : Json → Multiset Json
  | .arr items => leavesOfItems items
  | .obj members => leavesOfMembers members
  | scalar => {scalar}

def leavesOfItems : List Json → Multiset Json
  | [] => 0
  | item :: items => leaves item + leavesOfItems items

def leavesOfMembers : List (String × Json) → Multiset Json
  | [] => 0
  | (_, value) :: members => leaves value + leavesOfMembers members

end

theorem leavesOfItems_append (first second : List Json) :
    leavesOfItems (first ++ second) = leavesOfItems first + leavesOfItems second := by
  induction first with
  | nil => exact (zero_add _).symm
  | cons item first ih => rw [List.cons_append, leavesOfItems, leavesOfItems, ih, add_assoc]

/-! ### Nothing is added -/

theorem leavesOfItems_mergeItems_le {base fragment : List Json}
    (hmerge : ∀ value ∈ fragment, ∀ held, leaves (merge held value) ≤ leaves held + leaves value) :
    leavesOfItems (mergeItems base fragment) ≤ leavesOfItems base + leavesOfItems fragment := by
  induction fragment generalizing base with
  | nil => exact Multiset.le_add_right ..
  | cons value fragment ih =>
      cases base with
      | nil => exact Multiset.le_add_left ..
      | cons held base =>
          obtain ⟨hvalue, hmerge⟩ := List.forall_mem_cons.mp hmerge
          calc leavesOfItems (mergeItems (held :: base) (value :: fragment))
            _ = leaves (merge held value) + leavesOfItems (mergeItems base fragment) := rfl
            _ ≤ leaves held + leaves value + (leavesOfItems base + leavesOfItems fragment) :=
                add_le_add (hvalue held) (ih hmerge)
            _ = leaves held + leavesOfItems base + (leaves value + leavesOfItems fragment) :=
                add_add_add_comm ..

theorem leavesOfMembers_amend_le {value : Json}
    (hvalue : ∀ held, leaves (merge held value) ≤ leaves held + leaves value) (key : String)
    (members : List (String × Json)) :
    leavesOfMembers (amend key (mergeOver value) members) ≤
      leavesOfMembers members + leaves value := by
  induction members with
  | nil => exact (add_comm _ _).le
  | cons member members ih =>
      obtain ⟨name, held⟩ := member
      rw [amend]
      split
      · calc leaves (merge held value) + leavesOfMembers members
          _ ≤ leaves held + leaves value + leavesOfMembers members :=
              add_le_add_left (hvalue held) _
          _ = leaves held + leavesOfMembers members + leaves value := add_right_comm ..
      · calc leaves held + leavesOfMembers (amend key (mergeOver value) members)
          _ ≤ leaves held + (leavesOfMembers members + leaves value) := add_le_add_right ih _
          _ = leaves held + leavesOfMembers members + leaves value := (add_assoc ..).symm

theorem leavesOfMembers_mergeMembers_le {base fragment : List (String × Json)}
    (hmerge : ∀ member ∈ fragment, ∀ held,
      leaves (merge held member.2) ≤ leaves held + leaves member.2) :
    leavesOfMembers (mergeMembers base fragment) ≤
      leavesOfMembers base + leavesOfMembers fragment := by
  induction fragment generalizing base with
  | nil => exact Multiset.le_add_right ..
  | cons member fragment ih =>
      obtain ⟨key, value⟩ := member
      obtain ⟨hvalue, hmerge⟩ := List.forall_mem_cons.mp hmerge
      calc leavesOfMembers (mergeMembers base ((key, value) :: fragment))
        _ ≤ leavesOfMembers (amend key (mergeOver value) base) + leavesOfMembers fragment :=
            ih hmerge
        _ ≤ leavesOfMembers base + leaves value + leavesOfMembers fragment :=
            add_le_add_left (leavesOfMembers_amend_le hvalue key base) _
        _ = leavesOfMembers base + (leaves value + leavesOfMembers fragment) := add_assoc ..

theorem leaves_merge_le (base fragment : Json) :
    leaves (merge base fragment) ≤ leaves base + leaves fragment := by
  induction fragment generalizing base with
  | obj fragment ih =>
      cases base with
      | obj members =>
          exact leavesOfMembers_mergeMembers_le fun member hmember held => ih member hmember held
      | _ => exact Multiset.le_add_left ..
  | arr fragment ih =>
      cases base with
      | arr items =>
          rw [merge]
          split
          · exact leavesOfItems_mergeItems_le fun value hvalue held => ih value hvalue held
          · exact (leavesOfItems_append items fragment).le
      | _ => exact Multiset.le_add_left ..
  | _ => exact Multiset.le_add_left ..

/-! ### Nothing of the fragment is lost -/

theorem le_leavesOfItems_mergeItems {base fragment : List Json}
    (hmerge : ∀ value ∈ fragment, ∀ held, leaves value ≤ leaves (merge held value)) :
    leavesOfItems fragment ≤ leavesOfItems (mergeItems base fragment) := by
  induction fragment generalizing base with
  | nil => exact Multiset.zero_le _
  | cons value fragment ih =>
      cases base with
      | nil => exact le_rfl
      | cons held base =>
          obtain ⟨hvalue, hmerge⟩ := List.forall_mem_cons.mp hmerge
          exact add_le_add (hvalue held) (ih hmerge)

theorem leavesOfMembers_le_of_sublist {members others : List (String × Json)}
    (h : members.Sublist others) : leavesOfMembers members ≤ leavesOfMembers others := by
  induction h with
  | slnil => exact le_rfl
  | cons member _ ih => exact ih.trans (Multiset.le_add_left ..)
  | cons_cons member _ ih => exact add_le_add_right ih _

/-- The members whose keys are not among some keys. -/
def besides (keys : List String) (members : List (String × Json)) : List (String × Json) :=
  members.filter fun member => member.1 ∉ keys

theorem besides_nil (members : List (String × Json)) : besides [] members = members := by
  simp [besides]

theorem besides_cons_of_mem {keys : List String} {key : String} (h : key ∈ keys) (value : Json)
    (members : List (String × Json)) :
    besides keys ((key, value) :: members) = besides keys members := by
  simp [besides, h]

theorem besides_cons_of_not_mem {keys : List String} {key : String} (h : key ∉ keys) (value : Json)
    (members : List (String × Json)) :
    besides keys ((key, value) :: members) = (key, value) :: besides keys members := by
  simp [besides, h]

theorem besides_cons_sublist (key : String) (keys : List String)
    (members : List (String × Json)) : (besides (key :: keys) members).Sublist (besides keys members) := by
  apply List.monotone_filter_right
  intro member hmember
  simp_all

/-- A value written at a key has all its leaves there, whatever was there before, and the members at
other keys keep theirs. -/
theorem le_leavesOfMembers_amend {value : Json}
    (hvalue : ∀ held, leaves value ≤ leaves (merge held value)) {key : String} {keys : List String}
    (hkey : key ∉ keys) (members : List (String × Json)) :
    leavesOfMembers (besides (key :: keys) members) + leaves value ≤
      leavesOfMembers (besides keys (amend key (mergeOver value) members)) := by
  induction members with
  | nil =>
      rw [amend, besides_cons_of_not_mem hkey]
      exact (add_comm _ _).le
  | cons member members ih =>
      obtain ⟨name, held⟩ := member
      rw [amend]
      by_cases hname : name = key
      · subst hname
        rw [if_pos rfl, besides_cons_of_not_mem hkey, besides_cons_of_mem (List.mem_cons_self ..),
          add_comm]
        exact add_le_add (hvalue held)
          (leavesOfMembers_le_of_sublist (besides_cons_sublist name keys members))
      · rw [if_neg hname]
        by_cases hmem : name ∈ keys
        · rw [besides_cons_of_mem hmem, besides_cons_of_mem (List.mem_cons_of_mem key hmem)]
          exact ih
        · rw [besides_cons_of_not_mem hmem, besides_cons_of_not_mem (by simp [hname, hmem]),
            leavesOfMembers, leavesOfMembers, add_assoc]
          exact add_le_add_right ih _

theorem le_leavesOfMembers_mergeMembers {base fragment : List (String × Json)}
    (hnodup : (fragment.map Prod.fst).Nodup)
    (hmerge : ∀ member ∈ fragment, ∀ held, leaves member.2 ≤ leaves (merge held member.2)) :
    leavesOfMembers (besides (fragment.map Prod.fst) base) + leavesOfMembers fragment ≤
      leavesOfMembers (mergeMembers base fragment) := by
  induction fragment generalizing base with
  | nil =>
      rw [List.map_nil, besides_nil]
      exact (add_zero _).le
  | cons member fragment ih =>
      obtain ⟨key, value⟩ := member
      obtain ⟨hnew, hnodup⟩ := List.nodup_cons.mp hnodup
      obtain ⟨hvalue, hmerge⟩ := List.forall_mem_cons.mp hmerge
      calc leavesOfMembers (besides (key :: fragment.map Prod.fst) base) +
            (leaves value + leavesOfMembers fragment)
        _ = leavesOfMembers (besides (key :: fragment.map Prod.fst) base) + leaves value +
              leavesOfMembers fragment := (add_assoc ..).symm
        _ ≤ leavesOfMembers (besides (fragment.map Prod.fst) (amend key (mergeOver value) base)) +
              leavesOfMembers fragment :=
            add_le_add_left (le_leavesOfMembers_amend hvalue hnew base) _
        _ ≤ leavesOfMembers (mergeMembers base ((key, value) :: fragment)) := ih hnodup hmerge

theorem le_leaves_merge (base : Json) {fragment : Json} (hfragment : fragment.keysDistinct) :
    leaves fragment ≤ leaves (merge base fragment) := by
  induction fragment generalizing base with
  | obj fragment ih =>
      obtain ⟨hnodup, hvalues⟩ := keysDistinct_obj.mp hfragment
      cases base with
      | obj members =>
          exact (Multiset.le_add_left ..).trans (le_leavesOfMembers_mergeMembers hnodup
            fun member hmember held => ih member hmember held (hvalues member hmember))
      | _ => exact le_rfl
  | arr fragment ih =>
      have hitems := keysDistinct_arr.mp hfragment
      cases base with
      | arr items =>
          rw [merge]
          split
          · exact le_leavesOfItems_mergeItems fun value hvalue held =>
              ih value hvalue held (hitems value hvalue)
          · exact (Multiset.le_add_left ..).trans (leavesOfItems_append items fragment).ge
      | _ => exact le_rfl
  | _ => exact le_rfl

/-- A merge has all scalars of the fragment, wherever they stand, and none more often than the base
and the fragment together. -/
theorem leaves_merge (base : Json) {fragment : Json} (hfragment : fragment.keysDistinct) :
    leaves fragment ≤ leaves (merge base fragment) ∧
      leaves (merge base fragment) ≤ leaves base + leaves fragment :=
  ⟨le_leaves_merge base hfragment, leaves_merge_le base fragment⟩

def storedDocument : Json :=
  .obj [("list", .arr [.obj [("p", .null)], .obj [("p", .str "s")]]), ("c", .obj [("x", .str "s")]),
    ("mixed", .arr [.bool true])]

def newDocument : Json :=
  .obj [("mixed", .arr [.obj [("q", .null)]]), ("list", .arr [.obj [("p", .str "t")]]),
    ("c", .str "t")]

theorem leaves_merge_stored :
    newDocument.keysDistinct ∧
    merge storedDocument newDocument =
      .obj [("list", .arr [.obj [("p", .str "t")], .obj [("p", .str "s")]]), ("c", .str "t"),
        ("mixed", .arr [.bool true, .obj [("q", .null)]])] ∧
    {.null, .str "t", .str "t"} ≤ leaves (merge storedDocument newDocument) ∧
    leaves (merge storedDocument newDocument) ≤
      {.null, .str "s", .str "s", .bool true} + {.null, .str "t", .str "t"} := by
  have hdistinct : newDocument.keysDistinct := by
    decide
  exact ⟨hdistinct, rfl, leaves_merge storedDocument hdistinct⟩

end Reshape.Json
