import Reshape.Proofs.JoinedSequences

/-!
Merging a document with itself.

Scalars, and mappings and sequences of mappings made of what is unchanged, are unchanged when they
are merged with themselves. A sequence with any other item is put behind itself and gets twice as
long. So a document is its own merge just if no such sequence is reached in it, be it through
mappings or through sequences of mappings (`merge_self_iff`). What stands inside a sequence with
another item does not count, as its items are not merged.
-/

namespace Reshape.Json

/-- A part of a document, reached through values of mappings and through items of sequences that
hold only mappings. -/
inductive Reached (part : Json) : Json → Prop
  | whole : Reached part part
  | member {members : List (String × Json)} {member : String × Json} (mem : member ∈ members)
      (inside : Reached part member.2) : Reached part (.obj members)
  | item {items : List Json} {item : Json} (mappings : onlyMappings items) (mem : item ∈ items)
      (inside : Reached part item) : Reached part (.arr items)

theorem forall_reached_obj {holds : List Json → Prop} {members : List (String × Json)} :
    (∀ items, Reached (.arr items) (.obj members) → holds items) ↔
      ∀ member ∈ members, ∀ items, Reached (.arr items) member.2 → holds items := by
  constructor
  · intro h member hmember items hitems
    exact h items (.member hmember hitems)
  · rintro h items (_ | ⟨hmember, hitems⟩)
    exact h _ hmember items hitems

theorem forall_reached_arr {list : List Json} :
    (∀ items, Reached (.arr items) (.arr list) → onlyMappings items) ↔
      onlyMappings list ∧
        ∀ item ∈ list, ∀ items, Reached (.arr items) item → onlyMappings items := by
  constructor
  · intro h
    have hlist := h list .whole
    exact ⟨hlist, fun item hitem items hitems => h items (.item hlist hitem hitems)⟩
  · rintro ⟨hlist, h⟩ items (_ | _ | ⟨-, hitem, hitems⟩)
    · exact hlist
    · exact h _ hitem items hitems

theorem map_eq_self_iff {α : Type} {change : α → α} {items : List α} :
    items.map change = items ↔ ∀ item ∈ items, change item = item := by
  conv_lhs => rhs; rw [← List.map_id items]
  exact List.map_inj_left

/-! ### Containers -/

theorem join_self_iff {items : List Json} :
    join items items = items ↔ onlyMappings items ∧ ∀ item ∈ items, merge item item = item := by
  by_cases hitems : onlyMappings items
  · have hmap : mergeItems items items = items.map fun item => merge item item := by
      simpa using mergeItems_map id id items
    rw [join_of_onlyMappings hitems hitems, hmap, map_eq_self_iff]
    simp [hitems]
  · -- The sequence is put behind itself, and it is not empty.
    have hne : items ≠ [] := by
      rintro rfl
      exact hitems rfl
    rw [join_of_other (by simp [hitems])]
    simp [hitems, hne]

/-- Members that come last in a mapping and are merged into it once more change in place. -/
theorem mergeMembers_append_self {front rest : List (String × Json)}
    (hnodup : ((front ++ rest).map Prod.fst).Nodup) :
    mergeMembers (front ++ rest) rest =
      front ++ rest.map fun member => (member.1, merge member.2 member.2) := by
  induction rest generalizing front with
  | nil => simp [mergeMembers]
  | cons member rest ih =>
      obtain ⟨key, value⟩ := member
      have habsent : key ∉ front.map Prod.fst := by
        rw [List.map_append] at hnodup
        exact not_mem_of_nodup_append_cons hnodup
      have hamend : amend key (mergeOver value) (front ++ (key, value) :: rest) =
          front ++ [(key, merge value value)] ++ rest := by
        rw [amend_append_of_not_mem _ habsent, amend, if_pos rfl, List.append_assoc]
        rfl
      rw [mergeMembers_cons, hamend, ih (by simpa using hnodup), List.append_assoc]
      rfl

theorem mergeMembers_self_iff {members : List (String × Json)}
    (hnodup : (members.map Prod.fst).Nodup) :
    mergeMembers members members = members ↔
      ∀ member ∈ members, merge member.2 member.2 = member.2 := by
  have hself : mergeMembers members members =
      members.map fun member => (member.1, merge member.2 member.2) :=
    @mergeMembers_append_self [] members hnodup
  rw [hself, map_eq_self_iff]
  simp [Prod.ext_iff]

/-! ### Whole documents -/

/-- A document merged with itself is the same, with the order of its keys, just if every sequence in
it that is reached holds nothing but mappings. -/
theorem merge_self_iff {value : Json} (hvalue : value.keysDistinct) :
    merge value value = value ↔ ∀ items, Reached (.arr items) value → onlyMappings items := by
  induction value with
  | obj members ih =>
      obtain ⟨hnodup, hvalues⟩ := keysDistinct_obj.mp hvalue
      rw [merge, Json.obj.injEq, mergeMembers_self_iff hnodup, forall_reached_obj]
      exact forall₂_congr fun member hmember => ih member hmember (hvalues member hmember)
  | arr items ih =>
      have hitems := keysDistinct_arr.mp hvalue
      rw [merge_arr, Json.arr.injEq, join_self_iff, forall_reached_arr]
      exact and_congr_right fun _ =>
        forall₂_congr fun item hitem => ih item hitem (hitems item hitem)
  | _ =>
      refine iff_of_true rfl ?_
      rintro items (_ | _)

def steadyDocument : Json :=
  .obj [("list", .arr [.obj [("p", .str "s"), ("q", .arr [])], .obj []]), ("a", .obj [("x", .null)])]

/-- The sequence that doubles stands in an item of a sequence of mappings. -/
def growingDocument : Json :=
  .obj [("list", .arr [.obj [], .obj [("p", .arr [.obj [], .null])]])]

theorem merge_self_iff_growing :
    steadyDocument.keysDistinct ∧ merge steadyDocument steadyDocument = steadyDocument ∧
    (∀ items, Reached (.arr items) steadyDocument → onlyMappings items) ∧
    growingDocument.keysDistinct ∧ Reached (.arr [.obj [], .null]) growingDocument ∧
    merge growingDocument growingDocument ≠ growingDocument := by
  have hsteady : merge steadyDocument steadyDocument = steadyDocument := by
    rfl
  have hreached : Reached (.arr [.obj [], .null]) growingDocument :=
    .member (List.mem_cons_self ..) (.item rfl (List.mem_cons_of_mem _ (List.mem_cons_self ..))
      (.member (List.mem_cons_self ..) .whole))
  refine ⟨by decide, hsteady, (merge_self_iff (by decide)).mp hsteady, by decide, hreached, ?_⟩
  intro hself
  have hall := (merge_self_iff (by decide)).mp hself _ hreached
  cases hall

end Reshape.Json
