import Reshape.Path
import Reshape.Proofs.DistinctKeys

/-!
Reading out of a merged document.

What is found along keys in a merge is fixed by what is found along them in the base and in the
fragment (`descend?_merge`). A value of both is the merge of the two, and a value of the fragment
alone is found as it is. A value of the base alone is found where the fragment stops at a mapping
that has no such key; where it stops at anything else, it has replaced what the base held. The
fragment has no key twice, as no document that is read has.
-/

namespace Reshape.Json

/-- The value at which following keys ends because it has no value for the next one. -/
def stop? : List String → Json → Option Json
  | [], _ => none
  | key :: keys, value =>
      match value.field? key with
      | some inner => stop? keys inner
      | none => some value

theorem exists_stop_of_descend?_eq_none {keys : List String} {value : Json}
    (h : descend? keys value = none) : ∃ stop, stop? keys value = some stop := by
  induction keys generalizing value with
  | nil => cases h
  | cons key keys ih =>
      rw [stop?]
      cases hfield : value.field? key with
      | none => exact ⟨value, rfl⟩
      | some inner => exact ih (by simpa [descend?, hfield] using h)

theorem stop?_cons_of_not_mapping {value : Json} (hvalue : value.isMapping = false)
    (key : String) (keys : List String) : stop? (key :: keys) value = some value := by
  cases value <;> simp_all [stop?, field?, isMapping]

theorem stop?_cons_of_lookup_eq_none {key : String} {members : List (String × Json)}
    (h : members.lookup key = none) (keys : List String) :
    stop? (key :: keys) (.obj members) = some (.obj members) := by
  simp [stop?, field?, h]

theorem stop?_cons_of_lookup_eq_some {key : String} {members : List (String × Json)}
    {inner : Json} (h : members.lookup key = some inner) (keys : List String) :
    stop? (key :: keys) (.obj members) = stop? keys inner := by
  simp [stop?, field?, h]

/-! ### One mapping into another -/

theorem lookup_mergeMembers {base fragment : List (String × Json)}
    (hnodup : (fragment.map Prod.fst).Nodup) (key : String) :
    (mergeMembers base fragment).lookup key =
      match fragment.lookup key with
      | some value => some (mergeOver value (base.lookup key))
      | none => base.lookup key := by
  induction fragment generalizing base with
  | nil => rfl
  | cons member fragment ih =>
      obtain ⟨name, value⟩ := member
      obtain ⟨hname, hrest⟩ := List.nodup_cons.mp hnodup
      rw [mergeMembers_cons, ih hrest, lookup_amend]
      by_cases hkey : key = name
      · -- The key does not come again, so its value is settled by this member.
        subst hkey
        have hlater : fragment.lookup key = none :=
          Option.not_isSome_iff_eq_none.mp (mt mem_keys_iff.mpr hname)
        simp [hlater]
      · rw [if_neg hkey, lookup_cons_of_ne hkey]

theorem keys_mergeMembers {base fragment : List (String × Json)}
    (hnodup : (fragment.map Prod.fst).Nodup) :
    (mergeMembers base fragment).map Prod.fst =
      base.map Prod.fst ++ (fragment.map Prod.fst).filter (· ∉ base.map Prod.fst) := by
  induction fragment generalizing base with
  | nil => simp [mergeMembers]
  | cons member fragment ih =>
      obtain ⟨name, value⟩ := member
      obtain ⟨hname, hrest⟩ := List.nodup_cons.mp hnodup
      rw [mergeMembers_cons, ih hrest, keys_amend]
      by_cases hheld : name ∈ base.map Prod.fst
      · rw [if_pos hheld, List.append_nil, List.map_cons,
          List.filter_cons_of_neg (by simpa using hheld)]
      · have hlater : (fragment.map Prod.fst).filter (· ∉ base.map Prod.fst ++ [name]) =
            (fragment.map Prod.fst).filter (· ∉ base.map Prod.fst) := by
          apply List.filter_congr
          intro key hkey
          have hne : key ≠ name := fun h => hname (h ▸ hkey)
          simp [hne]
        rw [if_neg hheld, List.map_cons, List.filter_cons_of_pos (by simpa using hheld), hlater,
          List.append_assoc]
        rfl

/-! ### One document into another -/

/-- What is found along keys in a merged document. -/
theorem descend?_merge {fragment : Json} (hfragment : fragment.keysDistinct) (keys : List String)
    (base : Json) :
    descend? keys (merge base fragment) =
      match descend? keys fragment with
      | some value => some (mergeOver value (descend? keys base))
      | none => if (stop? keys fragment).any isMapping then descend? keys base else none := by
  induction keys generalizing base fragment with
  | nil => rfl
  | cons key keys ih =>
      cases hmapping : fragment.isMapping with
      | false =>
          have hmerge : (merge base fragment).isMapping = false := by
            rw [isMapping_merge, hmapping]
          rw [descend?_cons_of_not_mapping hmerge, descend?_cons_of_not_mapping hmapping,
            stop?_cons_of_not_mapping hmapping]
          simp [hmapping]
      | true =>
          obtain ⟨added, rfl⟩ := exists_members_of_isMapping hmapping
          cases hbase : base.isMapping with
          | false =>
              rw [merge_of_not_mapping hbase, descend?_cons_of_not_mapping hbase]
              cases descend? (key :: keys) (.obj added) with
              | none => exact (ite_self none).symm
              | some value => rfl
          | true =>
              obtain ⟨members, rfl⟩ := exists_members_of_isMapping hbase
              obtain ⟨hnodup, -⟩ := keysDistinct_obj.mp hfragment
              rw [merge, descend?_cons_obj, descend?_cons_obj, descend?_cons_obj,
                lookup_mergeMembers hnodup]
              cases hadded : added.lookup key with
              | none =>
                  rw [stop?_cons_of_lookup_eq_none hadded]
                  rfl
              | some value =>
                  rw [stop?_cons_of_lookup_eq_some hadded]
                  cases members.lookup key with
                  | none =>
                      -- The member is new, so what is below it comes from the fragment alone.
                      show descend? keys value = _
                      rw [Option.bind_some, Option.bind_none]
                      cases descend? keys value with
                      | none => exact (ite_self none).symm
                      | some found => rfl
                  | some held => exact ih (keysDistinct_of_lookup hfragment hadded) held

/-- Reading through a merge. A value of both documents is merged, and one of the fragment alone
stands as it is; one of the base alone stands if the fragment stops at a mapping, and is gone if it
stops at anything else. A mapping keeps the keys of the base in their order and has the new ones of
the fragment behind them. -/
theorem resolve_merge (base : Json) {fragment : Json} (hfragment : fragment.keysDistinct)
    (p : Path) :
    (∀ held value, p.resolve base = some held → p.resolve fragment = some value →
      p.resolve (merge base fragment) = some (merge held value)) ∧
    (∀ value, p.resolve base = none → p.resolve fragment = some value →
      p.resolve (merge base fragment) = some value) ∧
    (∀ held, p.resolve base = some held → p.resolve fragment = none →
      ∃ stop, stop? p.segments fragment = some stop ∧
        p.resolve (merge base fragment) = if stop.isMapping then some held else none) ∧
    (p.resolve base = none → p.resolve fragment = none →
      p.resolve (merge base fragment) = none) ∧
    (∀ members added, p.resolve base = some (.obj members) →
      p.resolve fragment = some (.obj added) →
        ∃ merged, p.resolve (merge base fragment) = some (.obj merged) ∧
          merged.map Prod.fst =
            members.map Prod.fst ++ (added.map Prod.fst).filter (· ∉ members.map Prod.fst)) := by
  have hmerge := descend?_merge hfragment p.segments base
  simp only [Path.resolve]
  refine ⟨?both, ?fragment, ?base, ?neither, ?keys⟩
  case both =>
    intro held value hheld hvalue
    rw [hmerge, hvalue, hheld]
    rfl
  case fragment =>
    intro value hheld hvalue
    rw [hmerge, hvalue, hheld]
    rfl
  case base =>
    intro held hheld hvalue
    obtain ⟨stop, hstop⟩ := exists_stop_of_descend?_eq_none hvalue
    refine ⟨stop, hstop, ?_⟩
    rw [hmerge, hvalue, hheld, hstop]
    rfl
  case neither =>
    intro hheld hvalue
    rw [hmerge, hvalue, hheld]
    exact ite_self none
  case keys =>
    intro members added hmembers hadded
    have hdistinct := keysDistinct_of_descend? hfragment hadded
    refine ⟨mergeMembers members added, ?_, keys_mergeMembers (keysDistinct_obj.mp hdistinct).1⟩
    rw [hmerge, hadded, hmembers]
    rfl

def heldDocument : Json :=
  .obj [("a", .obj [("x", .bool true), ("y", .obj [("p", .bool true)])]), ("b", .str "s"),
    ("c", .obj [("u", .null)])]

def addedDocument : Json :=
  .obj [("a", .obj [("y", .obj [("q", .bool false), ("p", .null)])]), ("b", .obj [("n", .null)]),
    ("c", .arr [])]

theorem resolve_merge_overlapping :
    addedDocument.keysDistinct ∧
    (Path.ofSegments ["a", "y"]).resolve (merge heldDocument addedDocument) =
      some (.obj [("p", .null), ("q", .bool false)]) ∧
    (Path.ofSegments ["b", "n"]).resolve (merge heldDocument addedDocument) = some .null ∧
    (Path.ofSegments ["a", "x"]).resolve (merge heldDocument addedDocument) =
      some (.bool true) ∧
    (Path.ofSegments ["c", "u"]).resolve (merge heldDocument addedDocument) = none := by
  have hdistinct : addedDocument.keysDistinct := by
    decide
  have hread := resolve_merge heldDocument hdistinct
  refine ⟨hdistinct, ?_, ?_, ?_, ?_⟩
  · exact (hread (.ofSegments ["a", "y"])).1 _ _ rfl rfl
  · exact (hread (.ofSegments ["b", "n"])).2.1 _ rfl rfl
  · obtain ⟨stop, hstop, hvalue⟩ := (hread (.ofSegments ["a", "x"])).2.2.1 _ rfl rfl
    cases hstop
    exact hvalue
  · obtain ⟨stop, hstop, hvalue⟩ := (hread (.ofSegments ["c", "u"])).2.2.1 _ rfl rfl
    cases hstop
    exact hvalue

end Reshape.Json
