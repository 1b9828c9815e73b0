import Mathlib.Data.List.Pairwise
import Reshape.Proofs.KeyPlacement
import Reshape.Template.Project

/-!
Where the values of entries land.

The projection of a template of entries puts the value that each entry contributes at the key path
of its target (`project_fields`). When these paths are apart, every value is found again at its
target, an entry without a value leaves nothing there, and nothing else is in the result.
-/

namespace Reshape

def Target.keys : Target → List String
  | .path p => p.segments
  | .level => []

theorem Target.place_eq_nest (value : Json) (target : Target) :
    target.place value = Json.nest target.keys value := by
  cases target <;> rfl

theorem Target.keys_ne_nil {target : Target} (h : target ≠ .level) : target.keys ≠ [] := by
  cases target with
  | path p => exact p.segments_ne_nil
  | level => exact (h rfl).elim

theorem Path.ne_empty_of_mem_segments (p : Path) : ∀ segment ∈ p.segments, segment ≠ "" :=
  fun segment hsegment => (p.segments_valid segment hsegment).1

theorem Target.ne_empty_of_mem_keys (target : Target) : ∀ key ∈ target.keys, key ≠ "" := by
  cases target with
  | path p => exact p.ne_empty_of_mem_segments
  | level => simp [Target.keys]

namespace Template

open Json

/-! ### What entries contribute -/

/-- What an entry contributes: the value at its source, reshaped by the template inside it if it
has one. -/
theorem contribution?_eq (entry : Entry) (source : Json) :
    contribution? entry source =
      (entry.source.resolve source).map fun value =>
        match entry.fields? with
        | none => value
        | some inner => value.onEach inner.project := by
  cases entry <;> simp [contribution?, Entry.source, Entry.fields?]

/-- A change to the template inside an entry that changes no result of it is not seen in what the
entry contributes. -/
theorem contribution?_congr {entry changed : Entry} {change : Template → Template}
    (hsource : changed.source = entry.source) (hfields : changed.fields? = entry.fields?.map change)
    (hinner : ∀ inner, entry.fields? = some inner →
      ∀ source, (change inner).project source = inner.project source) (source : Json) :
    contribution? changed source = contribution? entry source := by
  rw [contribution?_eq, contribution?_eq, hsource, hfields]
  cases hinside : entry.fields? with
  | none => rfl
  | some inner =>
      have hproject : (change inner).project = inner.project := funext (hinner inner hinside)
      simp only [Option.map_some, hproject]

def present (source : Json) (entry : Entry) : Bool :=
  (entry.source.resolve source).isSome

theorem isSome_contribution? (entry : Entry) (source : Json) :
    (contribution? entry source).isSome = present source entry := by
  rw [contribution?_eq, Option.isSome_map, present]

theorem contribution?_eq_none {entry : Entry} {source : Json}
    (h : entry.source.resolve source = none) : contribution? entry source = none := by
  rw [contribution?_eq, h]
  rfl

theorem exists_contribution_of_present {entry : Entry} {source : Json} (h : present source entry) :
    ∃ value, contribution? entry source = some value :=
  Option.isSome_iff_exists.mp ((isSome_contribution? entry source).trans h)

theorem onEach_of_kind_ne {value : Json} (hvalue : value.kind ≠ .sequence)
    (change : Json → Json) : value.onEach change = change value := by
  cases value with
  | arr items => exact (hvalue rfl).elim
  | _ => rfl

/-! ### Where that is put -/

/-- The targets of entries are paths, and no two of these are equal or one a prefix of the
other. -/
structure TargetsApart (entries : List Entry) : Prop where
  paths : ∀ entry ∈ entries, entry.target ≠ .level
  apart : entries.Pairwise fun entry other => Apart entry.target.keys other.target.keys

def placements (entries : List Entry) (source : Json) : List (List String × Json) :=
  entries.filterMap fun entry => (contribution? entry source).map (entry.target.keys, ·)

theorem placements_append (first second : List Entry) (source : Json) :
    placements (first ++ second) source = placements first source ++ placements second source := by
  exact List.filterMap_append

theorem mem_placements {entries : List Entry} {source : Json}
    {placement : List String × Json} :
    placement ∈ placements entries source ↔
      ∃ entry ∈ entries, contribution? entry source = some placement.2 ∧
        entry.target.keys = placement.1 := by
  obtain ⟨keys, value⟩ := placement
  simp only [placements, List.mem_filterMap, Option.map_eq_some_iff, Prod.mk.injEq]
  constructor
  · rintro ⟨entry, hentry, _, hvalue, hkeys, rfl⟩
    exact ⟨entry, hentry, hvalue, hkeys⟩
  · rintro ⟨entry, hentry, hvalue, hkeys⟩
    exact ⟨entry, hentry, value, hvalue, hkeys, rfl⟩

theorem placements_eq_nil {entries : List Entry} {source : Json}
    (h : ∀ entry ∈ entries, contribution? entry source = none) :
    placements entries source = [] := by
  apply List.filterMap_eq_nil_iff.mpr
  intro entry hentry
  rw [h entry hentry]
  rfl

theorem placements_ne_nil {entries : List Entry} {source : Json}
    (h : ∃ entry ∈ entries, present source entry) : placements entries source ≠ [] := by
  obtain ⟨entry, hentry, hpresent⟩ := h
  obtain ⟨value, hvalue⟩ := exists_contribution_of_present hpresent
  exact List.ne_nil_of_mem (mem_placements.mpr ⟨entry, hentry, hvalue, rfl⟩ :
    (entry.target.keys, value) ∈ _)

theorem project_fields (entries : List Entry) (source : Json) :
    project (.fields entries) source = putAll (.obj []) (placements entries source) := by
  have hfragments : fragments entries source =
      (placements entries source).map fun placement => nest placement.1 placement.2 := by
    rw [fragments_eq_filterMap, placements, List.map_filterMap]
    congr 1
    funext entry
    cases contribution? entry source with
    | none => rfl
    | some value => simp [Target.place_eq_nest]
  rw [project, hfragments, putAll, List.foldl_map]

theorem keys_ne_nil_of_mem_placements {entries : List Entry} {source : Json}
    (hpaths : ∀ entry ∈ entries, entry.target ≠ .level)
    {placement : List String × Json} (hplaced : placement ∈ placements entries source) :
    placement.1 ≠ [] := by
  obtain ⟨entry, hentry, -, hkeys⟩ := mem_placements.mp hplaced
  rw [← hkeys]
  exact Target.keys_ne_nil (hpaths entry hentry)

theorem TargetsApart.fits_placements {entries : List Entry} (h : TargetsApart entries)
    (source : Json) : Fits (placements entries source) (.obj []) := by
  constructor
  case apart =>
    refine List.Pairwise.filterMap _ ?_ h.apart
    rintro entry other hapart _ hone _ hother
    obtain ⟨_, -, rfl⟩ := Option.map_eq_some_iff.mp hone
    obtain ⟨_, -, rfl⟩ := Option.map_eq_some_iff.mp hother
    exact hapart
  case free =>
    intro placement hplaced
    exact free_empty (keys_ne_nil_of_mem_placements h.paths hplaced)

theorem TargetsApart.apart_of_ne {entries : List Entry} (h : TargetsApart entries)
    {entry other : Entry} (hentry : entry ∈ entries) (hother : other ∈ entries)
    (hne : entry ≠ other) : Apart entry.target.keys other.target.keys := by
  have : Std.Symm fun entry other : Entry => Apart entry.target.keys other.target.keys :=
    ⟨fun _ _ hapart => hapart.symm⟩
  exact h.apart.forall hentry hother hne

theorem TargetsApart.apart_of_contribution_ne {entries : List Entry} (h : TargetsApart entries)
    {entry other : Entry} (hentry : entry ∈ entries) (hother : other ∈ entries) {source : Json}
    (hne : contribution? entry source ≠ contribution? other source) :
    Apart entry.target.keys other.target.keys := by
  apply h.apart_of_ne hentry hother
  rintro rfl
  exact hne rfl

theorem descend?_project_target {entries : List Entry} (h : TargetsApart entries)
    {entry : Entry} (hentry : entry ∈ entries) (source : Json) :
    descend? entry.target.keys (project (.fields entries) source) =
      contribution? entry source := by
  rw [project_fields]
  cases hvalue : contribution? entry source with
  | some value =>
      exact descend?_putAll_of_mem (h.fits_placements source)
        (mem_placements.mpr ⟨entry, hentry, hvalue, rfl⟩ : (entry.target.keys, value) ∈ _)
  | none =>
      have hapart : ∀ placement ∈ placements entries source,
          Apart entry.target.keys placement.1 := by
        intro placement hplaced
        obtain ⟨other, hother, hcontributed, hkeys⟩ := mem_placements.mp hplaced
        rw [← hkeys]
        have hne : contribution? entry source ≠ contribution? other source := by
          simp [hvalue, hcontributed]
        exact h.apart_of_contribution_ne hentry hother hne
      rw [descend?_putAll_of_apart hapart]
      obtain ⟨key, keys, hkeys⟩ :=
        List.exists_cons_of_ne_nil (Target.keys_ne_nil (h.paths entry hentry))
      rw [hkeys]
      rfl

theorem exists_entry_of_descend?_project {entries : List Entry} {source : Json}
    {keys : List String} (hkeys : keys ≠ [])
    (hfound : (descend? keys (project (.fields entries) source)).isSome) :
    ∃ entry ∈ entries, (contribution? entry source).isSome ∧
      (keys <+: entry.target.keys ∨ entry.target.keys <+: keys) := by
  apply Classical.byContradiction
  intro hnone
  have hapart : ∀ placement ∈ placements entries source, Apart keys placement.1 := by
    intro placement hplaced
    obtain ⟨entry, hentry, hcontributed, htarget⟩ := mem_placements.mp hplaced
    rw [← htarget]
    constructor
    · intro hkeys
      exact hnone ⟨entry, hentry, by simp [hcontributed], Or.inl hkeys⟩
    · intro hkeys
      exact hnone ⟨entry, hentry, by simp [hcontributed], Or.inr hkeys⟩
  obtain ⟨key, rest, rfl⟩ := List.exists_cons_of_ne_nil hkeys
  rw [project_fields, descend?_putAll_of_apart hapart] at hfound
  simp [descend?, field?] at hfound

/-- A projection is exact when the targets are apart: each target holds just what its entry
contributes, and there is no other key path than those that lead to the targets of entries that
contribute or on from them. -/
theorem project_exact {entries : List Entry} (h : TargetsApart entries) (source : Json) :
    (∀ entry ∈ entries, ∀ path, entry.target = .path path →
      path.resolve (project (.fields entries) source) = contribution? entry source) ∧
    ∀ keys ≠ [], (descend? keys (project (.fields entries) source)).isSome →
      ∃ entry ∈ entries, (contribution? entry source).isSome ∧
        (keys <+: entry.target.keys ∨ entry.target.keys <+: keys) := by
  constructor
  · intro entry hentry path htarget
    have hfound := descend?_project_target h hentry source
    rw [htarget] at hfound
    exact hfound
  · intro keys hkeys hfound
    exact exists_entry_of_descend?_project hkeys hfound

def sharedPrefixEntries : List Entry :=
  [.scalar (.path (.ofSegments ["a", "b"])) (.ofSegments ["title"]),
   .group (.path (.ofSegments ["names"])) (.ofSegments ["authors"])
    (.path (.ofSegments ["a", "c"]))
    (.fields [.scalar (.path (.ofSegments ["name"])) (.ofSegments ["name"])]),
   .scalar (.path (.ofSegments ["a", "d"])) (.ofSegments ["missing"])]

def sharedPrefixSource : Json :=
  .obj [("title", .str "t"),
    ("authors", .arr [.obj [("name", .str "n"), ("age", .null)], .str "anonymous"])]

theorem project_exact_sharedPrefix :
    TargetsApart sharedPrefixEntries ∧
    (Path.ofSegments ["a", "c"]).resolve
        (project (.fields sharedPrefixEntries) sharedPrefixSource) =
      some (.arr [.obj [("name", .str "n")], .obj []]) ∧
    (Path.ofSegments ["a", "d"]).resolve
        (project (.fields sharedPrefixEntries) sharedPrefixSource) = none := by
  have hapart : TargetsApart sharedPrefixEntries := ⟨by decide, by decide⟩
  have hexact := (project_exact hapart sharedPrefixSource).1
  refine ⟨hapart, ?_, ?_⟩
  · exact hexact sharedPrefixEntries[1] (by decide) _ rfl
  · exact hexact sharedPrefixEntries[2] (by decide) _ rfl

end Template

end Reshape
