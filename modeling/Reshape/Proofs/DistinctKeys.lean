import Reshape.Proofs.DocumentParts

/-!
Documents in which no mapping has a key twice.

Every document that is read from a text is of this sort. It is decided by the parts of a document,
so merging and wrapping keep to it, and it is what makes a mapping the same as what is looked up in
it.
-/

namespace Reshape.Json

mutual

/-- Whether no mapping in a document has a key twice. -/
def keysDistinct : Json → Bool
  | .arr items => keysDistinctItems items
  | .obj members => decide (members.map Prod.fst).Nodup && keysDistinctMembers members
  | _ => true

def keysDistinctItems : List Json → Bool
  | [] => true
  | item :: items => keysDistinct item && keysDistinctItems items

def keysDistinctMembers : List (String × Json) → Bool
  | [] => true
  | (_, value) :: members => keysDistinct value && keysDistinctMembers members

end

theorem keysDistinct_arr {items : List Json} :
    keysDistinct (.arr items) ↔ ∀ item ∈ items, item.keysDistinct := by
  rw [keysDistinct]
  induction items with
  | nil => simp [keysDistinctItems]
  | cons item items ih => simp [keysDistinctItems, ih]

theorem keysDistinct_obj {members : List (String × Json)} :
    keysDistinct (.obj members) ↔
      (members.map Prod.fst).Nodup ∧ ∀ member ∈ members, member.2.keysDistinct := by
  have hmembers : keysDistinctMembers members ↔ ∀ member ∈ members, member.2.keysDistinct := by
    induction members with
    | nil => simp [keysDistinctMembers]
    | cons member members ih => simp [keysDistinctMembers, ih]
  rw [keysDistinct, Bool.and_eq_true, decide_eq_true_iff, hmembers]

theorem keysDistinct_obj_cons {key : String} {value : Json} {members : List (String × Json)} :
    keysDistinct (.obj ((key, value) :: members)) ↔
      key ∉ members.map Prod.fst ∧ value.keysDistinct ∧ keysDistinct (.obj members) := by
  rw [keysDistinct_obj, keysDistinct_obj, List.map_cons, List.nodup_cons, List.forall_mem_cons,
    and_assoc, and_left_comm (b := value.keysDistinct)]

theorem mem_keys_iff {key : String} {members : List (String × Json)} :
    key ∈ members.map Prod.fst ↔ (members.lookup key).isSome := by
  induction members with
  | nil => simp
  | cons member members ih =>
      obtain ⟨name, value⟩ := member
      by_cases h : key = name
      · simp [h]
      · rw [lookup_cons_of_ne h, ← ih]
        simp [h]

theorem byParts_keysDistinct : ByParts (fun value => value.keysDistinct) List.Nodup where
  arr := keysDistinct_arr
  obj := keysDistinct_obj
  none := List.nodup_nil
  add hheld _ _ habsent := List.nodup_append.mpr ⟨hheld, by simp, by
    rintro key hkey _ hadded rfl
    exact habsent (List.mem_singleton.mp hadded ▸ hkey)⟩

theorem keysDistinct_of_lookup {key : String} {value : Json} {members : List (String × Json)}
    (hmembers : keysDistinct (.obj members)) (h : members.lookup key = some value) :
    value.keysDistinct :=
  (keysDistinct_obj.mp hmembers).2 _ (mem_of_lookup h)

theorem keysDistinct_of_descend? {keys : List String} {source value : Json}
    (hsource : source.keysDistinct) (h : descend? keys source = some value) :
    value.keysDistinct :=
  byParts_keysDistinct.descend? hsource h

theorem keysDistinct_nest (keys : List String) {value : Json} (hvalue : value.keysDistinct) :
    (nest keys value).keysDistinct :=
  byParts_keysDistinct.nest (by simp) hvalue

/-! ### Merging -/

theorem mergeMembers_of_nodup {base fragment : List (String × Json)}
    (hnodup : ((base ++ fragment).map Prod.fst).Nodup) :
    mergeMembers base fragment = base ++ fragment := by
  induction fragment generalizing base with
  | nil => simp [mergeMembers]
  | cons member fragment ih =>
      obtain ⟨key, value⟩ := member
      have habsent : key ∉ base.map Prod.fst := by
        rw [List.map_append] at hnodup
        exact not_mem_of_nodup_append_cons hnodup
      have hnodup' : ((base ++ [(key, value)] ++ fragment).map Prod.fst).Nodup := by
        simpa using hnodup
      rw [mergeMembers_cons, amend_of_not_mem _ habsent]
      simpa [mergeOver] using ih hnodup'

theorem merge_empty {fragment : Json} (hfragment : fragment.keysDistinct) :
    merge (.obj []) fragment = fragment := by
  cases fragment with
  | obj members =>
      have hnodup : (([] ++ members).map Prod.fst).Nodup := (keysDistinct_obj.mp hfragment).1
      exact congrArg Json.obj (mergeMembers_of_nodup hnodup)
  | _ => rfl

end Reshape.Json
