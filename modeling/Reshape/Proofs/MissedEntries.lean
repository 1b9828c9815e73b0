import Reshape.Proofs.MarkCount
import Reshape.Proofs.Rereading

/-!
Entries that are missed.

Where entries of a level have one output key, all but the last are lost in reading back. If no
entry with a template of its own reads a path that is a prefix of another source or has it for a
prefix, some projection shows the loss: an entry without a template is missed at a mark at its
source, and one with a template at any mapping there.
-/

namespace Reshape.Template

open Json

/-- An entry with a template of its own reads a path that is apart from all other sources. -/
def GroupsApart (entries : List Entry) : Prop :=
  entries.Pairwise fun entry other =>
    entry.fields?.isSome ∨ other.fields?.isSome →
      Apart entry.source.segments other.source.segments

instance (entries : List Entry) : Decidable (GroupsApart entries) :=
  inferInstanceAs (Decidable (entries.Pairwise _))

theorem GroupsApart.apart {before after : List Entry} {entry other : Entry}
    (h : GroupsApart (before ++ entry :: after)) (hother : other ∈ before ++ after)
    (hfields : entry.fields?.isSome ∨ other.fields?.isSome) :
    Apart other.source.segments entry.source.segments := by
  obtain ⟨-, hafter, hbefore⟩ := List.pairwise_append.mp h
  rcases List.mem_append.mp hother with hother | hother
  · exact hbefore other hother entry (by simp) hfields.symm
  · exact ((List.pairwise_cons.mp hafter).1 other hother hfields).symm

theorem contribution?_eq_none_of_apart {entry other : Entry}
    (h : Apart other.source.segments entry.source.segments) (value : Json) :
    contribution? other (entry.source.wrap value) = none :=
  contribution?_eq_none (descend?_nest_of_apart h value)

theorem contribution?_wrap {entry : Entry} {inner : Template} {value : Json}
    (hfields : entry.fields? = some inner) (hvalue : value.isMapping) :
    contribution? entry (entry.source.wrap value) = some (inner.project value) := by
  have hresolve : entry.source.resolve (entry.source.wrap value) = some value :=
    descend?_nest entry.source.segments value
  rw [contribution?_eq, hresolve, hfields]
  cases value with
  | obj members => rfl
  | _ => cases hvalue

theorem present_rereadEntry (source : Json) (entry : Entry) :
    present source (rereadEntry entry) = present source entry := by
  rw [present, present, source_rereadEntry]

theorem present_wrap (entry : Entry) (value : Json) :
    present (entry.source.wrap value) entry := by
  have hfound : entry.source.resolve (entry.source.wrap value) = some value :=
    descend?_nest entry.source.segments value
  rw [present, hfound]
  rfl

theorem length_placements (entries : List Entry) (source : Json) :
    (placements entries source).length = entries.countP (present source) := by
  rw [placements, List.length_filterMap_eq_countP]
  congr 1
  funext entry
  rw [Option.isSome_map, isSome_contribution?]

theorem placements_alone {before after : List Entry} {entry : Entry} {source value : Json}
    (hothers : ∀ other ∈ before ++ after, contribution? other source = none)
    (hvalue : contribution? entry source = some value) :
    placements (before ++ entry :: after) source = [(entry.target.keys, value)] := by
  obtain ⟨hbefore, hafter⟩ := List.forall_mem_append.mp hothers
  have hentry : placements (entry :: after) source =
      (entry.target.keys, value) :: placements after source := by
    rw [placements, List.filterMap_cons, hvalue]
    rfl
  rw [placements_append, hentry, placements_eq_nil hbefore, placements_eq_nil hafter]
  rfl

/-- An entry with a template of its own is alone in finding a value at its source. -/
theorem GroupsApart.placements_wrap {before after : List Entry} {entry : Entry}
    {inner : Template} (h : GroupsApart (before ++ entry :: after))
    (hfields : entry.fields? = some inner) {value : Json} (hvalue : value.isMapping) :
    placements (before ++ entry :: after) (entry.source.wrap value) =
      [(entry.target.keys, inner.project value)] := by
  have hnested : entry.fields?.isSome := by
    rw [hfields]
    rfl
  refine placements_alone ?_ (contribution?_wrap hfields hvalue)
  intro other hother
  exact contribution?_eq_none_of_apart (h.apart hother (Or.inl hnested)) value

theorem GroupsApart.project_wrap {before after : List Entry} {entry : Entry}
    {inner : Template} (h : GroupsApart (before ++ entry :: after))
    (hfields : entry.fields? = some inner) {value : Json} (hvalue : value.isMapping)
    (hdistinct : value.keysDistinct) :
    project (.fields (before ++ entry :: after)) (entry.source.wrap value) =
      nest entry.target.keys (inner.project value) := by
  rw [project_fields, h.placements_wrap hfields hvalue]
  exact merge_empty (keysDistinct_nest entry.target.keys (keysDistinct_project inner hdistinct))

theorem GroupsApart.map_rereadEntry {entries : List Entry} (h : GroupsApart entries) :
    GroupsApart (entries.map rereadEntry) := by
  refine List.pairwise_map.mpr (h.imp ?_)
  intro entry other hpair
  simpa [fields?_rereadEntry, source_rereadEntry] using hpair

theorem holdsMarks_project {entries : List Entry} {source : Json}
    (hentries : ∀ entry ∈ entries, ∀ value, contribution? entry source = some value →
      HoldsMarks value 1) :
    HoldsMarks (project (.fields entries) source) (entries.countP (present source)) := by
  have hempty : HoldsMarks (.obj []) 0 := ⟨[], rfl, .empty⟩
  rw [project_fields, ← length_placements, ← Nat.zero_add (placements entries source).length]
  apply holdsMarks_putAll hempty
  intro placement hplacement
  obtain ⟨entry, hentry, hvalue, hkeys⟩ := mem_placements.mp hplacement
  rw [← hkeys]
  exact ⟨entry.target.ne_empty_of_mem_keys, hentries entry hentry _ hvalue⟩

/-- At a mark at its source, an entry without a template meets only others of its sort. -/
theorem fields?_eq_none_of_resolve {before after : List Entry} {entry other : Entry}
    (hapart : GroupsApart (before ++ entry :: after)) (hscalar : entry.fields? = none)
    (hother : other ∈ before ++ entry :: after) {value held : Json}
    (hheld : other.source.resolve (entry.source.wrap value) = some held) :
    other.fields? = none := by
  by_cases hself : other = entry
  · rw [hself, hscalar]
  · apply Option.not_isSome_iff_eq_none.mp
    intro hnested
    have hmem : other ∈ before ++ after := by
      simpa [hself] using hother
    have hnone := descend?_nest_of_apart (hapart.apart hmem (Or.inr hnested)) value
    rw [Path.resolve, Path.wrap, hnone] at hheld
    cases hheld

theorem holdsMarks_of_contribution? {entry other : Entry} {value : Json}
    (hscalar : ∀ held, other.source.resolve (entry.source.wrap oneMark) = some held →
      other.fields? = none)
    (h : contribution? other (entry.source.wrap oneMark) = some value) : HoldsMarks value 1 := by
  rw [contribution?_eq] at h
  obtain ⟨held, hheld, hvalue⟩ := Option.map_eq_some_iff.mp h
  rw [hscalar held hheld] at hvalue
  rw [← hvalue]
  exact holdsMarks_of_descend?_nest other.source.ne_empty_of_mem_segments
    entry.source.ne_empty_of_mem_segments hheld

section

variable {before after : List Entry} {entry later : Entry}
  (hapart : GroupsApart (before ++ entry :: after)) (hlater : later ∈ after)
  (htext : later.output.text = entry.output.text)

include hlater htext

theorem countP_present_lt (value : Json) :
    (rereadEntries [] (before ++ entry :: after)).countP (present (entry.source.wrap value)) <
      (before ++ entry :: after).countP (present (entry.source.wrap value)) := by
  have hlt := @countP_rereadEntries_lt (present (entry.source.wrap value))
    (present_rereadEntry _) before after [] entry later hlater htext (present_wrap entry value)
  rwa [List.countP_nil, Nat.zero_add] at hlt

include hapart

/-- An overwritten entry without a template is missed where a mark stands at its source: there is
one mark less for each such entry. -/
theorem project_ne_of_scalar (hscalar : entry.fields? = none) :
    project (.fields (rereadEntries [] (before ++ entry :: after)))
        (entry.source.wrap oneMark) ≠
      project (.fields (before ++ entry :: after)) (entry.source.wrap oneMark) := by
  have hwritten : HoldsMarks
      (project (.fields (before ++ entry :: after)) (entry.source.wrap oneMark))
      ((before ++ entry :: after).countP (present (entry.source.wrap oneMark))) := by
    apply holdsMarks_project
    intro other hother value
    exact holdsMarks_of_contribution? fun held => fields?_eq_none_of_resolve hapart hscalar hother
  have hreread : HoldsMarks
      (project (.fields (rereadEntries [] (before ++ entry :: after)))
        (entry.source.wrap oneMark))
      ((rereadEntries [] (before ++ entry :: after)).countP
        (present (entry.source.wrap oneMark))) := by
    apply holdsMarks_project
    intro other hother value
    rcases mem_of_mem_rereadEntries hother with hnone | ⟨kept, hkept, rfl⟩
    · cases hnone
    · refine holdsMarks_of_contribution? fun held hheld => ?_
      rw [source_rereadEntry] at hheld
      rw [fields?_rereadEntry, fields?_eq_none_of_resolve hapart hscalar hkept hheld]
      rfl
  have hlt : _ < (before ++ entry :: after).countP (present (entry.source.wrap oneMark)) :=
    countP_present_lt hlater htext oneMark
  intro heq
  rw [heq] at hreread
  exact Nat.ne_of_lt hlt (hreread.count_unique hwritten)

/-- An overwritten entry with a template is missed at any value at its source: no other entry
finds one, and nothing is left. -/
theorem project_ne_of_nested {inner : Template} (hfields : entry.fields? = some inner)
    (hlevel : entry.target ≠ .level) {value : Json} (hvalue : value.isMapping)
    (hdistinct : value.keysDistinct) :
    project (.fields (rereadEntries [] (before ++ entry :: after))) (entry.source.wrap value) ≠
      project (.fields (before ++ entry :: after)) (entry.source.wrap value) := by
  have hplaced : placements (rereadEntries [] (before ++ entry :: after))
      (entry.source.wrap value) = [] := by
    have hone := length_placements (before ++ entry :: after) (entry.source.wrap value)
    have hlt : _ < (before ++ entry :: after).countP (present (entry.source.wrap value)) :=
      countP_present_lt hlater htext value
    rw [hapart.placements_wrap hfields hvalue, List.length_singleton] at hone
    rw [← hone, ← length_placements, Nat.lt_one_iff] at hlt
    exact List.eq_nil_of_length_eq_zero hlt
  rw [hapart.project_wrap hfields hvalue hdistinct, project_fields, hplaced]
  obtain ⟨key, keys, hkeys⟩ := List.exists_cons_of_ne_nil (Target.keys_ne_nil hlevel)
  rw [hkeys]
  intro heq
  cases heq

end

theorem isMapping_wrap (p : Path) (value : Json) : (p.wrap value).isMapping :=
  isMapping_nest p.segments_ne_nil value

theorem outputsDistinct_of_project_eq {entries : List Entry} (halone : LevelAlone entries)
    (hapart : GroupsApart entries)
    (heq : ∀ source : Json, source.isMapping → source.keysDistinct →
      project (.fields (rereadEntries [] entries)) source = project (.fields entries) source) :
    OutputsDistinct entries := by
  apply Classical.byContradiction
  intro h
  obtain ⟨before, entry, after, rfl, later, hlater, htext⟩ := exists_overwritten h
  have hsource := heq (entry.source.wrap oneMark) (isMapping_wrap entry.source oneMark)
    (keysDistinct_nest entry.source.segments rfl)
  cases hfields : entry.fields? with
  | none => exact project_ne_of_scalar hapart hlater htext hfields hsource
  | some inner =>
      have hlength : 1 < (before ++ entry :: after).length := by
        have := List.length_pos_of_mem hlater
        rw [List.length_append, List.length_cons]
        omega
      have hlevel := halone hlength entry (by simp)
      exact project_ne_of_nested hapart hlater htext hfields hlevel rfl rfl hsource

theorem nest_injective {keys : List String} {value other : Json}
    (h : nest keys value = nest keys other) : value = other := by
  have hfound := descend?_nest keys value
  rw [h, descend?_nest] at hfound
  exact (Option.some.inj hfound).symm

/-- What an entry's own template does to a value is seen where the value stands at its source. -/
theorem project_inner_eq {entries : List Entry} {entry : Entry} {inner : Template}
    (hapart : GroupsApart entries) (hentry : entry ∈ entries)
    (htarget : entry.target.reread = entry.target) (hfields : entry.fields? = some inner)
    {value : Json} (hvalue : value.isMapping) (hdistinct : value.keysDistinct)
    (heq : project (.fields (entries.map rereadEntry)) (entry.source.wrap value) =
      project (.fields entries) (entry.source.wrap value)) :
    (reread inner).project value = inner.project value := by
  obtain ⟨before, after, rfl⟩ := List.append_of_mem hentry
  have hreread := hapart.map_rereadEntry
  rw [List.map_append, List.map_cons] at heq hreread
  have hfieldsReread : (rereadEntry entry).fields? = some (reread inner) := by
    rw [fields?_rereadEntry, hfields]
    rfl
  have hinner := hreread.project_wrap hfieldsReread hvalue hdistinct
  rw [source_rereadEntry, target_rereadEntry, htarget, heq,
    hapart.project_wrap hfields hvalue hdistinct] at hinner
  exact (nest_injective hinner).symm

theorem outputsDistinct_of_project_reread {t : Template} (hsound : EveryLevel Sound t)
    (hapart : EveryLevel GroupsApart t)
    (heq : ∀ source : Json, source.isMapping → source.keysDistinct →
      (reread t).project source = t.project source) : EveryLevel OutputsDistinct t := by
  induction hsound with
  | @fields entries hlevel _ ih =>
      obtain ⟨hlevelApart, hinsideApart⟩ := everyLevel_fields.mp hapart
      have houtputs := outputsDistinct_of_project_eq hlevel.alone hlevelApart heq
      -- Now every entry of the level is kept, so that what happens inside one can be seen outside.
      refine .fields houtputs ?_
      intro entry hentry inner hinner
      apply ih entry hentry inner hinner (hinsideApart entry hentry inner hinner)
      intro value hvalue hdistinct
      have hsource := heq (entry.source.wrap value) (isMapping_wrap entry.source value)
        (keysDistinct_nest entry.source.segments hdistinct)
      rw [reread, houtputs.rereadEntries] at hsource
      exact project_inner_eq hlevelApart hentry (hlevel.readable entry hentry) hinner hvalue
        hdistinct hsource
  | paths items => exact .paths items

end Reshape.Template
