import Reshape.Proofs.GroupFusion
import Reshape.Proofs.MissedEntries

/-!
Legacy templates in the canonical layout.

A legacy template is keyed by source paths and a canonical one by output keys, so two entries of a
level may be written under one key, and the earlier one is lost: a group without a name of its own
is written under its source path, which may be what another entry is called. What is written can
always be read back. Projections stay the same when the output keys of each level are distinct, and
else some change, as long as the groups read paths apart from the other sources. Without that a
lost entry need not be missed, since groups may hide what it contributes.
-/

namespace Reshape.Template

open Json

theorem contribution?_rereadEntry {entry : Entry}
    (hinner : ∀ inner, entry.fields? = some inner →
      ∀ value, (reread inner).project value = inner.project value)
    (source : Json) : contribution? (rereadEntry entry) source = contribution? entry source :=
  contribution?_congr (source_rereadEntry entry) (fields?_rereadEntry entry) hinner source

theorem project_reread {t : Template} (hsound : EveryLevel Sound t)
    (hdistinct : EveryLevel OutputsDistinct t) (source : Json) :
    (reread t).project source = t.project source := by
  induction hsound generalizing source with
  | @fields entries hlevel _ ih =>
      obtain ⟨houtputs, hinside⟩ := everyLevel_fields.mp hdistinct
      rw [reread, houtputs.rereadEntries, project_fields, project_fields, placements, placements,
        List.filterMap_map]
      congr 1
      apply List.filterMap_congr
      intro entry hentry
      have hcontribution : contribution? (rereadEntry entry) source =
          contribution? entry source :=
        contribution?_rereadEntry (fun inner hinner =>
          ih entry hentry inner hinner (hinside entry hentry inner hinner)) source
      rw [Function.comp_apply, hcontribution, target_rereadEntry, hlevel.readable entry hentry]
  | paths items => rfl

/-- What is written of a template from the legacy layout is read back as a template. It projects
every document as before if no two entries of a level have one output key; and only if, as long as
the entries with a template of their own read paths apart from the others'. -/
theorem legacy_conversion {value : Json} {t : Template} (h : ofLegacy value = .ok t) :
    ∃ t', ofJson (toJson t) = .ok t' ∧
      (EveryLevel OutputsDistinct t → ∀ source, t'.project source = t.project source) ∧
      (EveryLevel GroupsApart t →
        (∀ source : Json, source.keysDistinct → t'.project source = t.project source) →
          EveryLevel OutputsDistinct t) := by
  have hsound := everyLevel_sound_of_ofLegacy h
  refine ⟨reread t, ofJson_toJson hsound, fun hdistinct => project_reread hsound hdistinct, ?_⟩
  intro hapart heq
  exact outputsDistinct_of_project_reread hsound hapart fun source _ => heq source

def levelNamedDocument : Json :=
  .obj [("title", .str "name"),
    ("-", .obj [("key", .str "all"), ("fields", .obj [("a.b", .str "a")])])]

def levelNamedTemplate : Template :=
  .fields [.scalar (.path (.ofSegments ["name"])) (.ofSegments ["title"]),
    .group (.path (.ofSegments ["-"])) (.ofSegments ["-"]) (.path (.ofSegments ["all"]))
      (.fields [.scalar (.path (.ofSegments ["a"])) (.ofSegments ["a", "b"])])]

def collidingDocument : Json :=
  .obj [("a", .str "b"), ("b", .obj [("key", .str "k"), ("fields", .obj [("x", .str "x")])])]

def collidingTemplate : Template :=
  .fields [.scalar (.path (.ofSegments ["b"])) (.ofSegments ["a"]),
    .group (.path (.ofSegments ["b"])) (.ofSegments ["b"]) (.path (.ofSegments ["k"]))
      (.fields [.scalar (.path (.ofSegments ["x"])) (.ofSegments ["x"])])]

theorem legacy_conversion_levelNamed :
    ofLegacy levelNamedDocument = .ok levelNamedTemplate ∧
    (∃ t', ofJson (toJson levelNamedTemplate) = .ok t' ∧
      ∀ source, t'.project source = levelNamedTemplate.project source) ∧
    ofLegacy collidingDocument = .ok collidingTemplate ∧
    ∃ t', ofJson (toJson collidingTemplate) = .ok t' ∧
      ∃ source : Json, source.keysDistinct ∧
        t'.project source ≠ collidingTemplate.project source := by
  have hnamed : ofLegacy levelNamedDocument = .ok levelNamedTemplate := by
    rfl
  have hcolliding : ofLegacy collidingDocument = .ok collidingTemplate := by
    rfl
  have hdistinct : EveryLevel OutputsDistinct levelNamedTemplate := by
    decide
  have hapart : EveryLevel GroupsApart collidingTemplate := by
    decide
  obtain ⟨named, hread, hproject, -⟩ := legacy_conversion hnamed
  obtain ⟨kept, hreadKept, -, hconverse⟩ := legacy_conversion hcolliding
  refine ⟨hnamed, ⟨named, hread, hproject hdistinct⟩, hcolliding, kept, hreadKept, ?_⟩
  apply Classical.byContradiction
  intro hnone
  have hsame : EveryLevel OutputsDistinct collidingTemplate := by
    apply hconverse hapart
    intro source hsource
    exact Classical.byContradiction fun hne => hnone ⟨source, hsource, hne⟩
  exact absurd hsame (by decide)

/-- The source of a group is one output key with that of an entry before it, and the entry is
lost. -/
theorem legacy_conversion_overwrites :
    ofLegacy collidingDocument = .ok collidingTemplate ∧
    ∃ t, ofJson (toJson collidingTemplate) = .ok t ∧
      collidingTemplate.project (.obj [("a", .str "1"), ("b", .obj [("x", .str "2")])]) =
        .obj [("b", .str "1"), ("k", .obj [("x", .str "2")])] ∧
      t.project (.obj [("a", .str "1"), ("b", .obj [("x", .str "2")])]) =
        .obj [("k", .obj [("x", .str "2")])] :=
  ⟨rfl, _, rfl, rfl, rfl⟩

/-! ### An entry that is lost and not missed -/

theorem merge_empty_merge_nil (value : Json) :
    merge (merge value (.obj [])) (.arr []) = .arr [] := by
  cases value <;> rfl

def maskedDocument : Json :=
  .obj [("x.y.z", .str "b"), ("b", .obj [("key", .str "b"), ("fields", .arr [])]),
    ("x", .obj [("key", .str "b"), ("fields", .obj [])]),
    ("x.y", .obj [("key", .str "b"), ("fields", .arr [])])]

def maskedEntry : Entry :=
  .scalar (.path (.ofSegments ["b"])) (.ofSegments ["x", "y", "z"])

def maskingGroup (source : Path) (inner : Template) : Entry :=
  .group (.path source) source (.path (.ofSegments ["b"])) inner

def maskingEntries : List Entry :=
  [maskingGroup (.ofSegments ["b"]) (.paths []), maskingGroup (.ofSegments ["x"]) (.fields []),
    maskingGroup (.ofSegments ["x", "y"]) (.paths [])]

def maskingValues : List Json :=
  [.obj [], .arr []]

theorem placements_masking {source value : Json}
    (h : contribution? maskedEntry source = some value) :
    ∃ values : List Json, placements maskingEntries source =
      (values ++ maskingValues).map (["b"], ·) := by
  have houter : ∃ members, descend? ["x"] source = some (.obj members) :=
    exists_mapping_of_descend?_append (List.cons_ne_nil "y" ["z"]) h
  have hinner : ∃ members, descend? ["x", "y"] source = some (.obj members) :=
    exists_mapping_of_descend?_append (List.cons_ne_nil "z" []) h
  obtain ⟨outer, houter⟩ := houter
  obtain ⟨inner, hinner⟩ := hinner
  have hsecond : contribution? (maskingGroup (.ofSegments ["x"]) (.fields [])) source =
      some (.obj []) := by
    exact congrArg (Option.map _) houter
  have hthird : contribution? (maskingGroup (.ofSegments ["x", "y"]) (.paths [])) source =
      some (.arr []) := by
    exact congrArg (Option.map _) hinner
  refine ⟨(contribution? (maskingGroup (.ofSegments ["b"]) (.paths [])) source).toList, ?_⟩
  rw [maskingEntries, placements, List.filterMap_cons, List.filterMap_cons, List.filterMap_cons,
    hsecond, hthird]
  cases contribution? (maskingGroup (.ofSegments ["b"]) (.paths [])) source <;> rfl

theorem putAll_masking (values : List Json) :
    putAll (.obj []) ((values ++ maskingValues).map (["b"], ·)) = .obj [("b", .arr [])] := by
  cases values with
  | nil => rfl
  | cons value values =>
      rw [List.cons_append, putAll_empty_cons (List.cons_ne_nil "b" []), List.foldl_append]
      exact congrArg (nest ["b"]) (merge_empty_merge_nil _)

/-- Where the source of a group is a prefix of another's, a lost entry need not be missed. -/
theorem project_reread_masked :
    ofLegacy maskedDocument = .ok (.fields (maskedEntry :: maskingEntries)) ∧
    ¬ EveryLevel OutputsDistinct (.fields (maskedEntry :: maskingEntries)) ∧
    ∀ source, (reread (.fields (maskedEntry :: maskingEntries))).project source =
      project (.fields (maskedEntry :: maskingEntries)) source := by
  refine ⟨rfl, by decide, ?_⟩
  intro source
  show project (.fields maskingEntries) source = _
  rw [project_fields, project_fields]
  cases h : contribution? maskedEntry source with
  | none =>
      have hnone : placements (maskedEntry :: maskingEntries) source =
          placements maskingEntries source := by
        rw [placements, List.filterMap_cons, h]
        rfl
      rw [hnone]
  | some value =>
      obtain ⟨values, hvalues⟩ := placements_masking h
      have hcons : placements (maskedEntry :: maskingEntries) source =
          ((value :: values) ++ maskingValues).map (["b"], ·) := by
        rw [placements, List.filterMap_cons, h]
        exact congrArg (List.cons (["b"], value)) hvalues
      rw [hcons, hvalues, putAll_masking, putAll_masking]

end Reshape.Template
