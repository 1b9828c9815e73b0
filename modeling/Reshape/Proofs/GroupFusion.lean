import Reshape.Proofs.EntryPlacement

/-!
Entries and groups that feed one place.

Entries that follow those of another template add their result to its result by one merge, as long
as their targets are apart (`putAll_placements_append`). The same is true inside groups: several
grouping entries may read one source and write to one group key. Their results are merged, and the
merge goes index by index because every item projects to a mapping. So they do what a single group
with all their fields does.
-/

namespace Reshape.Json

theorem merge_nest_nest (keys : List String) (base fragment : Json) :
    merge (nest keys base) (nest keys fragment) = nest keys (merge base fragment) := by
  induction keys with
  | nil => rfl
  | cons key keys ih =>
      rw [nest, merge_nest_cons]
      simp [amend, mergeOver, ih, nest]

theorem isMapping_putAll {placed : List (List String × Json)}
    (hpaths : ∀ placement ∈ placed, placement.1 ≠ []) {base : Json} (hbase : base.isMapping) :
    (putAll base placed).isMapping := by
  induction placed generalizing base with
  | nil => exact hbase
  | cons placement placed ih =>
      have hmerge : (merge base (nest placement.1 placement.2)).isMapping := by
        rw [isMapping_merge]
        exact isMapping_nest (hpaths placement (by simp)) placement.2
      rw [putAll_cons]
      exact ih (fun other hother => hpaths other (List.mem_cons_of_mem _ hother)) hmerge

theorem merge_empty_of_isMapping {base : Json} (hbase : base.isMapping) :
    merge base (.obj []) = base := by
  obtain ⟨members, rfl⟩ := exists_members_of_isMapping hbase
  rfl

/-- Values put at paths in two goes are the merge of the two results, when the second paths are
apart. -/
theorem putAll_empty_append {first second : List (List String × Json)}
    (hfirst : ∀ placement ∈ first, placement.1 ≠ []) (hsecond : Fits second (.obj [])) :
    putAll (.obj []) (first ++ second) =
      merge (putAll (.obj []) first) (putAll (.obj []) second) := by
  have hmapping : (putAll (.obj []) first).isMapping := isMapping_putAll hfirst rfl
  rw [putAll_append, merge_putAll hsecond, merge_empty_of_isMapping hmapping]

/-- A value at a key path that is followed further keys down. -/
def beneath (keys : List String) (placement : List String × Json) : List String × Json :=
  (keys ++ placement.1, placement.2)

theorem nest_append (first second : List String) (value : Json) :
    nest (first ++ second) value = nest first (nest second value) := by
  induction first with
  | nil => rfl
  | cons key first ih => rw [List.cons_append, nest, ih, nest]

theorem putAll_beneath (keys : List String) (base : Json) (placed : List (List String × Json)) :
    putAll (nest keys base) (placed.map (beneath keys)) = nest keys (putAll base placed) := by
  induction placed generalizing base with
  | nil => rfl
  | cons placement placed ih =>
      rw [List.map_cons, putAll_cons, beneath, nest_append, merge_nest_nest]
      exact ih (merge base (nest placement.1 placement.2))

theorem putAll_empty_beneath_cons {keys : List String} (hkeys : keys ≠ [])
    (placement : List String × Json) (placed : List (List String × Json)) :
    putAll (.obj []) ((placement :: placed).map (beneath keys)) =
      nest keys (putAll (nest placement.1 placement.2) placed) := by
  rw [List.map_cons, putAll_cons, beneath,
    merge_empty_nest (List.append_ne_nil_of_left_ne_nil hkeys placement.1), nest_append]
  exact putAll_beneath keys _ placed

/-- Values put at one path stand there as their merge. -/
theorem putAll_empty_cons {keys : List String} (hkeys : keys ≠ []) (value : Json)
    (values : List Json) :
    putAll (.obj []) ((value :: values).map (keys, ·)) = nest keys (values.foldl merge value) := by
  have hplaced : (value :: values).map (keys, ·) =
      (([], value) :: values.map ([], ·)).map (beneath keys) := by
    simp [beneath]
  rw [hplaced, putAll_empty_beneath_cons hkeys, putAll, List.foldl_map]
  rfl

theorem mergeItems_map (first second : Json → Json) (items : List Json) :
    mergeItems (items.map first) (items.map second) =
      items.map fun item => merge (first item) (second item) := by
  induction items with
  | nil => rfl
  | cons item items ih => simp [mergeItems, ih]

/-- Two results that are mappings on every item are merged item by item. -/
theorem merge_onEach {first second : Json → Json} (hfirst : ∀ value, (first value).isMapping)
    (hsecond : ∀ value, (second value).isMapping) (value : Json) :
    merge (value.onEach first) (value.onEach second) =
      value.onEach fun item => merge (first item) (second item) := by
  cases value with
  | arr items =>
      have hall : ((items.map first).all isMapping && (items.map second).all isMapping) = true := by
        simp [hfirst, hsecond]
      simp only [onEach, merge, hall, if_true, mergeItems_map]
  | _ => rfl

end Reshape.Json

namespace Reshape.Template

open Json

theorem isMapping_project {entries : List Entry}
    (hpaths : ∀ entry ∈ entries, entry.target ≠ .level) (source : Json) :
    (project (.fields entries) source).isMapping := by
  rw [project_fields]
  exact isMapping_putAll (fun _ hplaced => keys_ne_nil_of_mem_placements hpaths hplaced) rfl

theorem putAll_placements_append {first second : List Entry}
    (hfirst : ∀ entry ∈ first, entry.target ≠ .level) (hsecond : TargetsApart second)
    (source : Json) :
    putAll (.obj []) (placements (first ++ second) source) =
      merge (putAll (.obj []) (placements first source))
        (putAll (.obj []) (placements second source)) := by
  rw [placements_append]
  exact putAll_empty_append (fun _ hplaced => keys_ne_nil_of_mem_placements hfirst hplaced)
    (hsecond.fits_placements source)

/-- The entries of two templates in one template do what merging the results of the two does. The
targets of the first may overlap each other and those of the second. -/
theorem project_append {first second : List Entry}
    (hfirst : ∀ entry ∈ first, entry.target ≠ .level) (hsecond : TargetsApart second)
    (source : Json) :
    project (.fields (first ++ second)) source =
      merge (project (.fields first) source) (project (.fields second) source) := by
  rw [project_fields, project_fields, project_fields]
  exact putAll_placements_append hfirst hsecond source

def earlierEntries : List Entry :=
  [.scalar (.path (.ofSegments ["a"])) (.ofSegments ["x"]),
   .scalar (.path (.ofSegments ["a", "b"])) (.ofSegments ["y"]),
   .scalar (.path (.ofSegments ["c"])) (.ofSegments ["list"])]

def laterEntries : List Entry :=
  [.scalar (.path (.ofSegments ["a", "b", "d"])) (.ofSegments ["x"]),
   .scalar (.path (.ofSegments ["c"])) (.ofSegments ["list"])]

theorem project_append_overlapping :
    (∀ entry ∈ earlierEntries, entry.target ≠ .level) ∧ TargetsApart laterEntries ∧
    merge
        (project (.fields earlierEntries)
          (.obj [("x", .str "x"), ("y", .str "y"), ("list", .arr [.null])]))
        (project (.fields laterEntries)
          (.obj [("x", .str "x"), ("y", .str "y"), ("list", .arr [.null])])) =
      .obj [("a", .obj [("b", .obj [("d", .str "x")])]), ("c", .arr [.null, .null])] := by
  have hfirst : ∀ entry ∈ earlierEntries, entry.target ≠ .level := by
    decide
  have hsecond : TargetsApart laterEntries := ⟨by decide, by decide⟩
  refine ⟨hfirst, hsecond, ?_⟩
  rw [← project_append hfirst hsecond]
  rfl

theorem merge_onEach_project {first second : List Entry}
    (hfirst : ∀ entry ∈ first, entry.target ≠ .level) (hsecond : TargetsApart second)
    (value : Json) :
    merge (value.onEach (project (.fields first))) (value.onEach (project (.fields second))) =
      value.onEach (project (.fields (first ++ second))) := by
  rw [merge_onEach (isMapping_project hfirst) (isMapping_project hsecond.paths)]
  congr 1
  funext item
  rw [project_fields, project_fields, project_fields]
  exact (putAll_placements_append hfirst hsecond item).symm

theorem foldl_merge_onEach_project {first : List Entry} {rest : List (Target × List Entry)}
    (hfirst : ∀ entry ∈ first, entry.target ≠ .level)
    (hrest : ∀ part ∈ rest, TargetsApart part.2) (value : Json) :
    (rest.map fun part => value.onEach (project (.fields part.2))).foldl merge
        (value.onEach (project (.fields first))) =
      value.onEach (project (.fields (first ++ rest.flatMap Prod.snd))) := by
  induction rest generalizing first with
  | nil => simp
  | cons part rest ih =>
      obtain ⟨hpart, hrest⟩ := List.forall_mem_cons.mp hrest
      have hboth : ∀ entry ∈ first ++ part.2, entry.target ≠ .level := by
        intro entry hentry
        rcases List.mem_append.mp hentry with hentry | hentry
        · exact hfirst entry hentry
        · exact hpart.paths entry hentry
      rw [List.map_cons, List.foldl_cons, merge_onEach_project hfirst hpart, ih hboth hrest]
      simp

/-- Groups that read one source and write to one group key are one group with all their fields in
order. Each group is given by its output key, which plays no part, and its entries. -/
theorem project_groups_fuse (source key : Path) (output : Target)
    {first : Target × List Entry} {rest : List (Target × List Entry)}
    (hfirst : ∀ entry ∈ first.2, entry.target ≠ .level)
    (hrest : ∀ part ∈ rest, TargetsApart part.2) (document : Json) :
    project (.fields ((first :: rest).map fun part =>
        .group part.1 source (.path key) (.fields part.2))) document =
      project (.fields [.group output source (.path key)
        (.fields ((first :: rest).flatMap Prod.snd))]) document := by
  rw [project_fields, project_fields]
  cases hvalue : source.resolve document with
  | none =>
      have hnone : placements ((first :: rest).map fun part =>
          .group part.1 source (.path key) (.fields part.2)) document = [] := by
        simp [placements, contribution?, hvalue]
      rw [hnone]
      simp [placements, contribution?, hvalue]
  | some value =>
      have hparts : placements ((first :: rest).map fun part =>
          .group part.1 source (.path key) (.fields part.2)) document =
          ((first :: rest).map fun part =>
            value.onEach (project (.fields part.2))).map (key.segments, ·) := by
        simp [placements, contribution?, hvalue, Target.keys, Entry.target, List.filterMap_map,
          Function.comp_def]
      have hfused : placements [.group output source (.path key)
          (.fields ((first :: rest).flatMap Prod.snd))] document =
          [value.onEach (project (.fields ((first :: rest).flatMap Prod.snd)))].map
            (key.segments, ·) := by
        simp [placements, contribution?, hvalue, Target.keys, Entry.target]
      rw [hparts, hfused, List.map_cons, putAll_empty_cons key.segments_ne_nil,
        putAll_empty_cons key.segments_ne_nil, foldl_merge_onEach_project hfirst hrest]
      rfl

def overlappingPart : Target × List Entry :=
  (.path (.ofSegments ["one"]),
    [.scalar (.path (.ofSegments ["a"])) (.ofSegments ["x"]),
     .scalar (.path (.ofSegments ["a", "b"])) (.ofSegments ["y"])])

def apartPart : Target × List Entry :=
  (.path (.ofSegments ["two"]),
    [.scalar (.path (.ofSegments ["a", "c"])) (.ofSegments ["z"]),
     .scalar (.path (.ofSegments ["d"])) (.ofSegments ["x"])])

def mixedItems : Json :=
  .obj [("items", .arr [.obj [("x", .str "x"), ("y", .str "y"), ("z", .str "z")], .null,
    .obj [("z", .bool true)]])]

theorem project_groups_fuse_overlapping :
    (∀ entry ∈ overlappingPart.2, entry.target ≠ .level) ∧ TargetsApart apartPart.2 ∧
    project (.fields ([overlappingPart, apartPart].map fun part =>
        .group part.1 (.ofSegments ["items"]) (.path (.ofSegments ["all"])) (.fields part.2)))
      mixedItems =
      .obj [("all", .arr [
        .obj [("a", .obj [("b", .str "y"), ("c", .str "z")]), ("d", .str "x")],
        .obj [],
        .obj [("a", .obj [("c", .bool true)])]])] := by
  have hfirst : ∀ entry ∈ overlappingPart.2, entry.target ≠ .level := by
    decide
  have hapart : TargetsApart apartPart.2 := ⟨by decide, by decide⟩
  have hrest : ∀ part ∈ [apartPart], TargetsApart part.2 := by
    simpa using hapart
  refine ⟨hfirst, hapart, ?_⟩
  rw [project_groups_fuse (.ofSegments ["items"]) (.ofSegments ["all"]) .level hfirst hrest]
  rfl

end Reshape.Template
