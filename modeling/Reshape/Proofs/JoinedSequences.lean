import Mathlib.Algebra.GroupWithZero.Nat
import Mathlib.Data.List.Basic
import Reshape.Proofs.DistinctKeys
import Reshape.Proofs.GroupFusion

/-!
Sequences written to one key.

While all of them hold nothing but mappings, sequences that are merged are laid over each other,
position by position (`overlay`). The first one with another item is put behind what is there by
then, and as its item stays in the result, so are all that follow (`foldl_join`). Entries with one
target that contribute sequences therefore give an overlay followed by whole sequences
(`resolve_project_sequences`).
-/

namespace Reshape.Json

def onlyMappings (items : List Json) : Bool :=
  items.all isMapping

/-- The merge of two sequences. -/
def join (base fragment : List Json) : List Json :=
  if onlyMappings base && onlyMappings fragment then mergeItems base fragment
  else base ++ fragment

theorem merge_arr (base fragment : List Json) :
    merge (.arr base) (.arr fragment) = .arr (join base fragment) := by
  rw [merge, join, apply_ite Json.arr]
  rfl

theorem foldl_merge_arr (base : List Json) (lists : List (List Json)) :
    (lists.map .arr).foldl merge (.arr base) = .arr (lists.foldl join base) := by
  induction lists generalizing base with
  | nil => rfl
  | cons items lists ih => rw [List.map_cons, List.foldl_cons, merge_arr, ih, List.foldl_cons]

theorem join_of_onlyMappings {base fragment : List Json} (hbase : onlyMappings base)
    (hfragment : onlyMappings fragment) : join base fragment = mergeItems base fragment := by
  simp [join, hbase, hfragment]

theorem join_of_other {base fragment : List Json}
    (hother : ¬ (onlyMappings base ∧ onlyMappings fragment)) :
    join base fragment = base ++ fragment :=
  if_neg (by simpa using hother)

theorem join_nil (items : List Json) : join [] items = items := by
  cases items <;> simp [join, onlyMappings, mergeItems]

/-! ### Sequences of mappings -/

/-- The merge of values from left to right. -/
def mergeAll? : List Json → Option Json
  | [] => none
  | value :: values => some (values.foldl merge value)

/-- Sequences laid over each other from left to right. -/
def overlay (lists : List (List Json)) : List Json :=
  lists.foldl mergeItems []

theorem mergeAll?_toList (value : Option Json) : mergeAll? value.toList = value := by
  cases value <;> rfl

theorem mergeAll?_append (first second : List Json) :
    mergeAll? ((mergeAll? first).toList ++ second) = mergeAll? (first ++ second) := by
  cases first with
  | nil => rfl
  | cons value values =>
      show some (second.foldl merge (values.foldl merge value)) = _
      rw [← List.foldl_append]
      rfl

theorem getElem?_mergeItems (base fragment : List Json) (index : Nat) :
    (mergeItems base fragment)[index]? =
      mergeAll? (base[index]?.toList ++ fragment[index]?.toList) := by
  induction fragment generalizing base index with
  | nil =>
      rw [mergeItems, List.getElem?_nil, Option.toList_none, List.append_nil, mergeAll?_toList]
  | cons value fragment ih =>
      cases base with
      | nil => exact (mergeAll?_toList _).symm
      | cons held base =>
          cases index with
          | zero => rfl
          | succ index => exact ih base index

theorem length_mergeItems (base fragment : List Json) :
    (mergeItems base fragment).length = max base.length fragment.length := by
  induction fragment generalizing base with
  | nil => simp [mergeItems]
  | cons value fragment ih =>
      cases base with
      | nil => simp [mergeItems]
      | cons held base => simp [mergeItems, ih]

theorem onlyMappings_mergeItems {base fragment : List Json} (hbase : onlyMappings base)
    (hfragment : onlyMappings fragment) : onlyMappings (mergeItems base fragment) := by
  induction fragment generalizing base with
  | nil => simpa [mergeItems] using hbase
  | cons value fragment ih =>
      cases base with
      | nil => exact hfragment
      | cons held base =>
          simp only [onlyMappings, List.all_cons, Bool.and_eq_true] at hbase hfragment ih
          rw [mergeItems, onlyMappings, List.all_cons, isMapping_merge, hfragment.1, Bool.true_and]
          exact ih hbase.2 hfragment.2

theorem getElem?_foldl_mergeItems (base : List Json) (lists : List (List Json)) (index : Nat) :
    (lists.foldl mergeItems base)[index]? =
      mergeAll? (base[index]?.toList ++ lists.filterMap (·[index]?)) := by
  induction lists generalizing base with
  | nil => rw [List.filterMap_nil, List.append_nil, mergeAll?_toList, List.foldl_nil]
  | cons items lists ih =>
      have hitems : items[index]?.toList ++ lists.filterMap (·[index]?) =
          (items :: lists).filterMap (·[index]?) := by
        rw [List.filterMap_cons]
        cases items[index]? <;> rfl
      rw [List.foldl_cons, ih, getElem?_mergeItems, mergeAll?_append, List.append_assoc, hitems]

theorem length_foldl_mergeItems (base : List Json) (lists : List (List Json)) :
    (lists.foldl mergeItems base).length = (lists.map List.length).foldl max base.length := by
  induction lists generalizing base with
  | nil => rfl
  | cons items lists ih =>
      rw [List.foldl_cons, ih, length_mergeItems, List.map_cons, List.foldl_cons]

theorem getElem?_overlay (lists : List (List Json)) (index : Nat) :
    (overlay lists)[index]? = mergeAll? (lists.filterMap (·[index]?)) :=
  getElem?_foldl_mergeItems [] lists index

theorem length_overlay (lists : List (List Json)) :
    (overlay lists).length = (lists.map List.length).foldl max 0 :=
  length_foldl_mergeItems [] lists

/-! ### Any sequences -/

/-- Once an item is not a mapping, all that is merged goes to the end. -/
theorem foldl_join_of_other {base : List Json} (hbase : onlyMappings base = false)
    (lists : List (List Json)) : lists.foldl join base = base ++ lists.flatten := by
  induction lists generalizing base with
  | nil => exact (List.append_nil base).symm
  | cons items lists ih =>
      have hjoin : join base items = base ++ items := join_of_other (by simp [hbase])
      have hother : onlyMappings (base ++ items) = false := by
        rw [onlyMappings, List.all_append, ← onlyMappings, hbase, Bool.false_and]
      rw [List.foldl_cons, hjoin, ih hother, List.append_assoc, List.flatten_cons]

theorem foldl_join {base : List Json} (hbase : onlyMappings base) (lists : List (List Json)) :
    lists.foldl join base =
      (lists.takeWhile onlyMappings).foldl mergeItems base ++
        (lists.dropWhile onlyMappings).flatten := by
  -- What is made by then holds only mappings until the first sequence that does not.
  induction lists generalizing base with
  | nil => exact (List.append_nil base).symm
  | cons items lists ih =>
      cases hitems : onlyMappings items with
      | true =>
          rw [List.takeWhile_cons_of_pos hitems, List.dropWhile_cons_of_pos hitems,
            List.foldl_cons, List.foldl_cons, join_of_onlyMappings hbase hitems,
            ih (onlyMappings_mergeItems hbase hitems)]
      | false =>
          have hjoin : join base items = base ++ items := join_of_other (by simp [hitems])
          have hother : onlyMappings (base ++ items) = false := by
            rw [onlyMappings, List.all_append, ← onlyMappings, ← onlyMappings, hitems,
              Bool.and_false]
          have hstop : ¬ onlyMappings items = true := by
            simp [hitems]
          rw [List.takeWhile_cons_of_neg hstop, List.dropWhile_cons_of_neg hstop, List.foldl_cons,
            hjoin, foldl_join_of_other hother, List.foldl_nil, List.flatten_cons,
            List.append_assoc]

/-! ### What is kept of an item -/

theorem mem_keys_mergeMembers {base fragment : List (String × Json)} {name : String} :
    name ∈ (mergeMembers base fragment).map Prod.fst ↔
      name ∈ base.map Prod.fst ∨ name ∈ fragment.map Prod.fst := by
  induction fragment generalizing base with
  | nil => simp [mergeMembers]
  | cons member fragment ih =>
      obtain ⟨key, value⟩ := member
      rw [mergeMembers_cons, ih, keys_amend]
      split <;> grind

theorem isSome_field?_merge {base fragment : Json} (hbase : base.isMapping)
    (hfragment : fragment.isMapping) (name : String) :
    ((merge base fragment).field? name).isSome ↔
      (base.field? name).isSome ∨ (fragment.field? name).isSome := by
  obtain ⟨members, rfl⟩ := exists_members_of_isMapping hbase
  obtain ⟨added, rfl⟩ := exists_members_of_isMapping hfragment
  rw [merge]
  simp only [field?, ← mem_keys_iff]
  exact mem_keys_mergeMembers

theorem isSome_field?_foldl_merge {value : Json} {values : List Json} (hvalue : value.isMapping)
    (hvalues : ∀ item ∈ values, item.isMapping) (name : String) :
    ((values.foldl merge value).field? name).isSome ↔
      ∃ item ∈ value :: values, (item.field? name).isSome := by
  induction values generalizing value with
  | nil => simp
  | cons next values ih =>
      obtain ⟨hnext, hvalues⟩ := List.forall_mem_cons.mp hvalues
      have hmerge : (merge value next).isMapping := by
        rw [isMapping_merge, hnext]
      rw [List.foldl_cons, ih hmerge hvalues]
      simp [isSome_field?_merge hvalue hnext, or_assoc]

/-- An item of one of some sequences of mappings is found again at its position in the overlay,
with all of its keys. -/
theorem exists_getElem?_overlay {lists : List (List Json)}
    (hlists : ∀ items ∈ lists, onlyMappings items) {items : List Json} (hitems : items ∈ lists)
    {index : Nat} {item : Json} (hitem : items[index]? = some item) :
    ∃ merged, (overlay lists)[index]? = some merged ∧
      ∀ name, (item.field? name).isSome → (merged.field? name).isSome := by
  have hmem : item ∈ lists.filterMap (·[index]?) :=
    List.mem_filterMap.mpr ⟨items, hitems, hitem⟩
  have hmappings : ∀ value ∈ lists.filterMap (·[index]?), value.isMapping := by
    intro value hvalue
    obtain ⟨held, hheld, hfound⟩ := List.mem_filterMap.mp hvalue
    exact List.all_eq_true.mp (hlists held hheld) value (List.mem_of_getElem? hfound)
  rw [getElem?_overlay]
  cases hvalues : lists.filterMap (·[index]?) with
  | nil => simp [hvalues] at hmem
  | cons value values =>
      rw [hvalues] at hmem hmappings
      obtain ⟨hvalue, hrest⟩ := List.forall_mem_cons.mp hmappings
      refine ⟨_, rfl, ?_⟩
      intro name hname
      exact (isSome_field?_foldl_merge hvalue hrest name).mpr ⟨item, hmem, hname⟩

end Reshape.Json

namespace Reshape.Template

open Json

theorem placements_of_target_eq {entries : List Entry} {key : Path}
    (htargets : ∀ entry ∈ entries, entry.target = .path key) (source : Json) :
    placements entries source =
      (entries.filterMap (contribution? · source)).map (key.segments, ·) := by
  rw [placements, List.map_filterMap]
  apply List.filterMap_congr
  intro entry hentry
  rw [htargets entry hentry]
  rfl

/-- Entries with one target that contribute sequences. Those before the first sequence with an item
that is not a mapping are laid over each other, and that one and all after it follow as they are.
So no item is dropped: it stands in the result, or what it was merged into has all its keys. -/
theorem resolve_project_sequences {entries : List Entry} {key : Path}
    (htargets : ∀ entry ∈ entries, entry.target = .path key) {source : Json}
    {lists : List (List Json)} (hlists : lists ≠ [])
    (hcontributed : entries.filterMap (contribution? · source) = lists.map .arr) :
    let front := lists.takeWhile onlyMappings
    let rest := lists.dropWhile onlyMappings
    key.resolve (project (.fields entries) source) = some (.arr (overlay front ++ rest.flatten)) ∧
    (overlay front).length = (front.map List.length).foldl max 0 ∧
    (∀ index : Nat, (overlay front)[index]? = mergeAll? (front.filterMap (·[index]?))) ∧
    (overlay front ++ rest.flatten).length =
      (front.map List.length).foldl max 0 + (rest.map List.length).sum ∧
    (∀ items ∈ front, ∀ (index : Nat) (item : Json), items[index]? = some item →
      ∃ merged, (overlay front)[index]? = some merged ∧
        ∀ name, (item.field? name).isSome → (merged.field? name).isSome) ∧
    ∀ items ∈ rest, items <:+: overlay front ++ rest.flatten := by
  intro front rest
  refine ⟨?value, length_overlay front, getElem?_overlay front, ?length, ?kept, ?whole⟩
  case value =>
    obtain ⟨items, lists, rfl⟩ := List.exists_cons_of_ne_nil hlists
    have hstart : lists.foldl join items = (items :: lists).foldl join [] := by
      rw [List.foldl_cons, join_nil]
    rw [project_fields, placements_of_target_eq htargets, hcontributed, List.map_cons,
      putAll_empty_cons key.segments_ne_nil, foldl_merge_arr, hstart,
      foldl_join (rfl : onlyMappings [] = true)]
    exact descend?_nest key.segments _
  case length =>
    rw [List.length_append, length_overlay, List.length_flatten]
  case kept =>
    intro items hitems index item hitem
    exact exists_getElem?_overlay (List.all_eq_true.mp List.all_takeWhile) hitems hitem
  case whole =>
    intro items hitems
    obtain ⟨before, after, hrest⟩ := List.append_of_mem hitems
    refine ⟨overlay front ++ before.flatten, after.flatten, ?_⟩
    simp [hrest]

/-- The items of the second sequence are what an entry for the level finds in them, and an empty
mapping where it finds nothing. -/
def sequenceEntries : List Entry :=
  [.scalar (.path (.ofSegments ["all", "list"])) (.ofSegments ["one"]),
   .group .level (.ofSegments ["two"]) (.path (.ofSegments ["all", "list"]))
    (.fields [.scalar .level (.ofSegments ["inner"])]),
   .scalar (.path (.ofSegments ["all", "list"])) (.ofSegments ["missing"]),
   .scalar (.path (.ofSegments ["all", "list"])) (.ofSegments ["three"]),
   .object (.path (.ofSegments ["all", "list"])) (.ofSegments ["four"])
    (.fields [.scalar (.path (.ofSegments ["z"])) (.ofSegments ["y"])])]

def sequenceDocument : Json :=
  .obj [("one", .arr [.obj [("x", .null)]]),
    ("two", .arr [.obj [("inner", .obj [("x", .bool true), ("w", .null)])], .str "s"]),
    ("three", .arr [.obj [("v", .null)], .str "t"]),
    ("four", .arr [.obj [("y", .null)]])]

def sequenceLists : List (List Json) :=
  [[.obj [("x", .null)]], [.obj [("x", .bool true), ("w", .null)], .obj []],
    [.obj [("v", .null)], .str "t"], [.obj [("z", .null)]]]

theorem resolve_project_sequences_switching :
    (∀ entry ∈ sequenceEntries, entry.target = .path (.ofSegments ["all", "list"])) ∧
    sequenceLists ≠ [] ∧
    sequenceEntries.filterMap (contribution? · sequenceDocument) = sequenceLists.map .arr ∧
    (Path.ofSegments ["all", "list"]).resolve (project (.fields sequenceEntries) sequenceDocument) =
      some (.arr [.obj [("x", .bool true), ("w", .null)], .obj [], .obj [("v", .null)], .str "t",
        .obj [("z", .null)]]) := by
  have htargets : ∀ entry ∈ sequenceEntries,
      entry.target = .path (.ofSegments ["all", "list"]) := by
    decide
  have hlists : sequenceLists ≠ [] := List.cons_ne_nil _ _
  have hcontributed : sequenceEntries.filterMap (contribution? · sequenceDocument) =
      sequenceLists.map .arr := by
    rfl
  refine ⟨htargets, hlists, hcontributed, ?_⟩
  exact (resolve_project_sequences htargets hlists hcontributed).1

end Reshape.Template
