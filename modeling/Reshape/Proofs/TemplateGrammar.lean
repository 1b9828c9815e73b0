import Reshape.Proofs.TemplateReading

/-!
The grammars of the two layouts.

Each layout is described here by what its documents look like, at every depth and without the order
in which a reader looks at their parts. `ofJson_accepts_iff` and `ofLegacy_accepts` say that the
readers accept just these documents. At an entry that may take the level the two layouts differ: in
the canonical one `-` is written out, and in the legacy one a group without a key takes it too.
-/

namespace Reshape

/-- A text is not empty, and neither is a piece of it between dots. -/
def IsPathText (text : String) : Prop :=
  text ≠ "" ∧ [] ∉ text.toList.splitOn '.'

/-- A text is `-` or that of a path. -/
def IsTargetText (text : String) : Prop :=
  text = "-" ∨ IsPathText text

theorem Path.exists_parse_iff {text : String} :
    (∃ p, Path.parse text = .ok p) ↔ IsPathText text :=
  exists_parse

theorem isPathText_iff {text : String} : IsPathText text ↔ ∃ p : Path, p.text = text := by
  simp only [← Path.exists_parse_iff, Path.parse_eq_ok_iff_text]

theorem Target.exists_parse_iff {text : String} :
    (∃ target, Target.parse text = .ok target) ↔ IsTargetText text := by
  by_cases hlevel : text = levelText
  · exact iff_of_true ⟨.level, if_pos hlevel⟩ (Or.inl hlevel)
  · have hdash : text ≠ "-" := hlevel
    rw [IsTargetText, or_iff_right hdash, ← Path.exists_parse_iff, parse, if_neg hlevel]
    simp only [map_eq_ok]
    constructor
    · rintro ⟨_, p, hp, -⟩
      exact ⟨p, hp⟩
    · rintro ⟨p, hp⟩
      exact ⟨_, p, hp, rfl⟩

theorem isTargetText_iff {text : String} :
    IsTargetText text ↔ ∃ target : Target, target.text = text ∧ target.reread = target := by
  simp only [← Target.exists_parse_iff, Target.parse_eq_ok_iff_text]

theorem Target.eq_level_iff {target : Target} (hreread : target.reread = target) :
    target = .level ↔ target.text = "-" := by
  constructor
  · rintro rfl
    rfl
  · intro htext
    have hlevel : target.text = Target.level.text := htext
    rw [← hreread, Target.reread_eq_iff.mpr hlevel]
    rfl

namespace Template

/-! ### Paths and levels -/

theorem exists_forall₂_iff {α β : Type} {R : α → β → Prop} {left : List α} :
    (∃ right, List.Forall₂ R left right) ↔ ∀ a ∈ left, ∃ b, R a b := by
  constructor
  · rintro ⟨right, h⟩
    induction h with
    | nil => simp
    | cons hfirst _ ih => exact List.forall_mem_cons.mpr ⟨⟨_, hfirst⟩, ih⟩
  · intro h
    induction left with
    | nil => exact ⟨[], .nil⟩
    | cons a left ih =>
        obtain ⟨⟨b, hfirst⟩, hrest⟩ := List.forall_mem_cons.mp h
        obtain ⟨right, hright⟩ := ih hrest
        exact ⟨b :: right, .cons hfirst hright⟩

theorem exists_readPaths_iff {items : List Json} :
    (∃ t, (readPaths items).map Template.paths = .ok t) ↔
      ∀ item ∈ items, ∃ text, item = .str text ∧ IsPathText text := by
  simp only [map_eq_ok, readPaths_eq_ok]
  constructor
  · rintro ⟨_, paths, rfl, -⟩ item hitem
    obtain ⟨p, -, rfl⟩ := List.mem_map.mp hitem
    exact ⟨p.text, rfl, isPathText_iff.mpr ⟨p, rfl⟩⟩
  · intro h
    have hpaths : ∀ item ∈ items, ∃ p : Path, item = .str p.text := by
      intro item hitem
      obtain ⟨text, rfl, htext⟩ := h item hitem
      obtain ⟨p, rfl⟩ := isPathText_iff.mp htext
      exact ⟨p, rfl⟩
    obtain ⟨paths, hall⟩ := exists_forall₂_iff.mpr hpaths
    rw [← List.forall₂_map_right_iff (f := fun p : Path => Json.str p.text),
      List.forall₂_eq_eq_eq] at hall
    exact ⟨_, paths, hall, rfl⟩

section

variable {R : String × Json → Entry → Prop} {takes : String × Json → Prop}
  (htakes : ∀ member entry, R member entry → (entry.target = .level ↔ takes member))

include htakes

theorem levelAlone_iff {members : List (String × Json)} {entries : List Entry}
    (h : List.Forall₂ R members entries) :
    LevelAlone entries ↔ (2 ≤ members.length → ∀ member ∈ members, ¬ takes member) := by
  have htargets : (∀ entry ∈ entries, entry.target ≠ .level) ↔
      ∀ member ∈ members, ¬ takes member := by
    induction h with
    | nil => simp
    | cons hfirst _ ih =>
        rw [List.forall_mem_cons, List.forall_mem_cons, ih, Ne, htakes _ _ hfirst]
  rw [LevelAlone, htargets, ← h.length_eq]
  rfl

/-- Members are read as the entries of a level just when each of them is read and, where there are
several, none takes the level. -/
theorem exists_readLevel_iff {members : List (String × Json)}
    {result : Except TemplateError (List Entry)}
    (hread : ∀ entries, result = .ok entries ↔ List.Forall₂ R members entries) :
    (∃ t, (do
      let entries ← result
      return Template.fields (← checkLevel entries)) = .ok t) ↔
      (∀ member ∈ members, ∃ entry, R member entry) ∧
        (2 ≤ members.length → ∀ member ∈ members, ¬ takes member) := by
  simp only [bind_checkLevel_eq_ok, hread, ← exists_forall₂_iff]
  constructor
  · rintro ⟨_, entries, hentries, halone, -⟩
    exact ⟨⟨entries, hentries⟩, (levelAlone_iff htakes hentries).mp halone⟩
  · rintro ⟨⟨entries, hentries⟩, halone⟩
    exact ⟨_, entries, hentries, (levelAlone_iff htakes hentries).mpr halone, rfl⟩

end

/-! ### The canonical layout -/

/-- A member of a canonical template has the level for its target: by its group key, or by its own
key where it has none. -/
def TakesLevel (member : String × Json) : Prop :=
  member.2.field? "groupKey" = some (.str "-") ∨
    member.1 = "-" ∧ member.2.field? "groupKey" = none

mutual

/-- The documents that lay out a template in the canonical way. -/
inductive CanonicalLayout : Json → Prop
  | paths {items : List Json} (each : ∀ item ∈ items, ∃ text, item = .str text ∧ IsPathText text) :
      CanonicalLayout (.arr items)
  | entries {members : List (String × Json)} (keys : ∀ member ∈ members, IsTargetText member.1)
      (nodes : ∀ member ∈ members, CanonicalNode member.2)
      (alone : 2 ≤ members.length → ∀ member ∈ members, ¬ TakesLevel member) :
      CanonicalLayout (.obj members)

/-- What stands under a key of a canonical template. -/
inductive CanonicalNode : Json → Prop
  | path {text : String} (source : IsPathText text) : CanonicalNode (.str text)
  | properties {properties : List (String × Json)} {text : String} {value : Json}
      (known : ∀ property ∈ properties,
        property.1 = "sourcePath" ∨ property.1 = "fields" ∨ property.1 = "groupKey")
      (sourcePath : properties.lookup "sourcePath" = some (.str text)) (source : IsPathText text)
      (fields : properties.lookup "fields" = some value) (inner : CanonicalLayout value)
      (groupKey : ∀ held, properties.lookup "groupKey" = some held →
        ∃ text, held = .str text ∧ IsTargetText text) : CanonicalNode (.obj properties)

end

theorem target_eq_level_iff (member : String × Json) (entry : Entry) (h : EntryOf member entry) :
    entry.target = .level ↔ TakesLevel member := by
  obtain ⟨key, node⟩ := member
  obtain ⟨output, houtput, hentry⟩ := h
  obtain ⟨rfl, hreread⟩ := Target.parse_eq_ok_iff_text.mp houtput
  cases node with
  | str text =>
      obtain ⟨source, -, rfl⟩ := map_eq_ok.mp hentry
      simpa [TakesLevel, Json.field?, Entry.target] using Target.eq_level_iff hreread
  | obj properties =>
      obtain ⟨-, source, value, inner, -, -, -, hgroup⟩ := readEntry_obj_eq_ok.mp hentry
      rcases hgroup with ⟨hnone, rfl⟩ | ⟨groupKey, hkey, hkeyReread, rfl⟩
      · have hnone : properties.lookup "groupKey" = none := hnone
        simpa [TakesLevel, Json.field?, Entry.target, hnone] using Target.eq_level_iff hreread
      · have hkey : properties.lookup "groupKey" = some (.str groupKey.text) := hkey
        simpa [TakesLevel, Json.field?, Entry.target, hkey] using Target.eq_level_iff hkeyReread
  | _ => cases hentry

theorem unknownProperty?_eq_none_iff {properties : List (String × Json)} :
    unknownProperty? properties = none ↔ ∀ property ∈ properties,
      property.1 = "sourcePath" ∨ property.1 = "fields" ∨ property.1 = "groupKey" := by
  simp [unknownProperty?, sourceProperty, fieldsProperty, groupProperty, or_iff_not_imp_left]

/-- What stands under a key is read as an entry just when it is a node of the layout, as long as
the same is true of the template in its fields. -/
theorem exists_readEntry_iff {key : String} {output : Target} {node : Json}
    (hfields : ∀ value, node.field? fieldsProperty = some value →
      ((∃ t, ofJson value = .ok t) ↔ CanonicalLayout value)) :
    (∃ entry, readEntry key output node = .ok entry) ↔ CanonicalNode node := by
  cases node with
  | str text =>
      constructor
      · rintro ⟨entry, h⟩
        obtain ⟨source, hsource, -⟩ := map_eq_ok.mp h
        exact .path (Path.exists_parse_iff.mp ⟨source, Path.parseIn_eq_ok.mp hsource⟩)
      · rintro ⟨htext⟩
        obtain ⟨source, hsource⟩ := Path.exists_parse_iff.mpr htext
        exact ⟨_, map_eq_ok.mpr ⟨source, Path.parseIn_eq_ok.mpr hsource, rfl⟩⟩
  | obj properties =>
      constructor
      · rintro ⟨entry, h⟩
        obtain ⟨hknown, source, value, inner, hsource, hvalue, hinner, hgroup⟩ :=
          readEntry_obj_eq_ok.mp h
        refine .properties (unknownProperty?_eq_none_iff.mp hknown) hsource
          (isPathText_iff.mpr ⟨source, rfl⟩) hvalue ((hfields value hvalue).mp ⟨inner, hinner⟩) ?_
        intro held hheld
        rcases hgroup with ⟨hnone, -⟩ | ⟨groupKey, hkey, hreread, -⟩
        · cases hheld.symm.trans hnone
        · obtain rfl := Option.some.inj (hheld.symm.trans hkey)
          exact ⟨groupKey.text, rfl, isTargetText_iff.mpr ⟨groupKey, rfl, hreread⟩⟩
      · rintro (_ | ⟨known, sourcePath, source, fields, layout, groupKey⟩)
        obtain ⟨p, rfl⟩ := isPathText_iff.mp source
        obtain ⟨inner, hinner⟩ := (hfields _ fields).mpr layout
        cases hgroup : properties.lookup groupProperty with
        | none =>
            exact ⟨_, readEntry_obj_eq_ok.mpr ⟨unknownProperty?_eq_none_iff.mpr known, p, _,
              inner, sourcePath, fields, hinner, Or.inl ⟨hgroup, rfl⟩⟩⟩
        | some held =>
            obtain ⟨text, rfl, htext⟩ := groupKey held hgroup
            obtain ⟨target, rfl, hreread⟩ := isTargetText_iff.mp htext
            exact ⟨_, readEntry_obj_eq_ok.mpr ⟨unknownProperty?_eq_none_iff.mpr known, p, _,
              inner, sourcePath, fields, hinner, Or.inr ⟨target, hgroup, hreread, rfl⟩⟩⟩
  | _ =>
      constructor
      · rintro ⟨_, ⟨⟩⟩
      · rintro ⟨⟩

theorem exists_entryOf_iff {member : String × Json}
    (hfields : ∀ value, member.2.field? fieldsProperty = some value →
      ((∃ t, ofJson value = .ok t) ↔ CanonicalLayout value)) :
    (∃ entry, EntryOf member entry) ↔ IsTargetText member.1 ∧ CanonicalNode member.2 := by
  constructor
  · rintro ⟨entry, output, houtput, hentry⟩
    exact ⟨Target.exists_parse_iff.mp ⟨output, houtput⟩,
      (exists_readEntry_iff hfields).mp ⟨entry, hentry⟩⟩
  · rintro ⟨hkey, hnode⟩
    obtain ⟨output, houtput⟩ := Target.exists_parse_iff.mpr hkey
    obtain ⟨entry, hentry⟩ := (exists_readEntry_iff hfields).mpr hnode
    exact ⟨entry, output, houtput, hentry⟩

/-- The documents that are read as templates are those of the canonical layout. -/
theorem ofJson_accepts_iff (value : Json) :
    (∃ t, ofJson value = .ok t) ↔ CanonicalLayout value := by
  induction value using Json.field_induction fieldsProperty with
  | step value ih =>
      cases value with
      | arr items =>
          rw [ofJson, exists_readPaths_iff]
          constructor
          · exact .paths
          · rintro ⟨each⟩
            exact each
      | obj members =>
          have hmembers : (∀ member ∈ members, ∃ entry, EntryOf member entry) ↔
              ∀ member ∈ members, IsTargetText member.1 ∧ CanonicalNode member.2 :=
            forall₂_congr fun member hmember => exists_entryOf_iff (ih members rfl member hmember)
          rw [ofJson, exists_readLevel_iff target_eq_level_iff fun _ => readEntries_eq_ok,
            hmembers]
          constructor
          · rintro ⟨hmembers, halone⟩
            exact .entries (fun member hmember => (hmembers member hmember).1)
              (fun member hmember => (hmembers member hmember).2) halone
          · rintro (_ | ⟨keys, nodes, alone⟩)
            exact ⟨fun member hmember => ⟨keys member hmember, nodes member hmember⟩, alone⟩
      | _ =>
          constructor
          · rintro ⟨_, ⟨⟩⟩
          · rintro ⟨⟩

/-! ### The legacy layout -/

/-- A target is the one that a text stands for. -/
def IsTargetOf (text : String) (target : Target) : Prop :=
  text = "-" ∧ target = .level ∨ text ≠ "-" ∧ ∃ p : Path, target = .path p ∧ p.text = text

theorem parse_eq_ok_iff_isTargetOf {text : String} {target : Target} :
    Target.parse text = .ok target ↔ IsTargetOf text target := by
  rw [Target.parse, IsTargetOf]
  split
  · rename_i hlevel
    have hdash : text = "-" := hlevel
    simp [hdash, eq_comm]
  · rename_i hlevel
    have hdash : text ≠ "-" := hlevel
    simp only [map_eq_ok, Path.parse_eq_ok_iff_text, hdash, ne_eq, not_false_eq_true, true_and,
      false_and, false_or]
    constructor
    · rintro ⟨p, htext, rfl⟩
      exact ⟨p, rfl, htext⟩
    · rintro ⟨p, rfl, htext⟩
      exact ⟨p, htext, rfl⟩

theorem IsTargetOf.eq_level_iff {text : String} {target : Target} (h : IsTargetOf text target) :
    target = .level ↔ text = "-" := by
  rcases h with ⟨rfl, rfl⟩ | ⟨htext, p, rfl, -⟩
  · simp
  · simp [htext]

theorem exists_isTargetOf_iff {text : String} :
    (∃ target, IsTargetOf text target) ↔ IsTargetText text := by
  simp only [← parse_eq_ok_iff_isTargetOf, Target.exists_parse_iff]

/-- A target is the group key that the properties of a legacy node give. -/
inductive LegacyKey (properties : List (String × Json)) : Target → Prop
  | absent (key : properties.lookup "key" = none) : LegacyKey properties .level
  | null (key : properties.lookup "key" = some .null) : LegacyKey properties .level
  | text {text : String} {target : Target} (key : properties.lookup "key" = some (.str text))
      (named : IsTargetOf text target) : LegacyKey properties target

/-- A member of a legacy template has the level for its target: its node is `-`, or has no other
group key. -/
def LegacyTakesLevel (member : String × Json) : Prop :=
  member.2 = .str "-" ∨ ∃ properties, member.2 = .obj properties ∧
    (properties.lookup "key" = none ∨ properties.lookup "key" = some .null ∨
      properties.lookup "key" = some (.str "-"))

mutual

/-- The documents that lay out a template in the legacy way. -/
inductive LegacyLayout : Json → Prop
  | paths {items : List Json} (each : ∀ item ∈ items, ∃ text, item = .str text ∧ IsPathText text) :
      LegacyLayout (.arr items)
  | entries {members : List (String × Json)} (keys : ∀ member ∈ members, IsPathText member.1)
      (nodes : ∀ member ∈ members, LegacyNode member.2)
      (alone : 2 ≤ members.length → ∀ member ∈ members, ¬ LegacyTakesLevel member) :
      LegacyLayout (.obj members)

/-- What stands under a key of a legacy template. -/
inductive LegacyNode : Json → Prop
  | target {text : String} (target : IsTargetText text) : LegacyNode (.str text)
  | properties {properties : List (String × Json)} {value : Json}
      (fields : properties.lookup "fields" = some value) (inner : LegacyLayout value)
      (key : properties.lookup "key" = none ∨ properties.lookup "key" = some .null ∨
        ∃ text, properties.lookup "key" = some (.str text) ∧ IsTargetText text) :
      LegacyNode (.obj properties)

end

/-- The entry that a member of a legacy template stands for. -/
inductive LegacyEntry : String × Json → Entry → Prop
  | scalar {source : Path} {text : String} {target : Target} (named : IsTargetOf text target) :
      LegacyEntry (source.text, .str text) (.scalar target source)
  | group {source : Path} {properties : List (String × Json)} {groupKey : Target} {value : Json}
      {inner : Template} (key : LegacyKey properties groupKey)
      (fields : properties.lookup "fields" = some value) (read : ofLegacy value = .ok inner) :
      LegacyEntry (source.text, .obj properties) (.group (.path source) source groupKey inner)

theorem readLegacyKey_eq_ok {sourceText : String} {properties : List (String × Json)}
    {target : Target} :
    readLegacyKey sourceText properties = .ok target ↔ LegacyKey properties target := by
  unfold readLegacyKey
  split
  · rename_i text hkey
    rw [Target.parseIn_eq_ok, parse_eq_ok_iff_isTargetOf]
    constructor
    · exact .text hkey
    · rintro (habsent | hnull | ⟨hkey', hnamed⟩)
      · cases hkey.symm.trans habsent
      · cases hkey.symm.trans hnull
      · cases hkey.symm.trans hkey'
        exact hnamed
  · rename_i hkey
    constructor
    · rintro ⟨⟩
      exact .null hkey
    · rintro (_ | _ | ⟨hkey', -⟩)
      · rfl
      · rfl
      · cases hkey.symm.trans hkey'
  · rename_i hkey
    constructor
    · rintro ⟨⟩
      exact .absent hkey
    · rintro (_ | _ | ⟨hkey', -⟩)
      · rfl
      · rfl
      · cases hkey.symm.trans hkey'
  · rename_i other hstr hnull hkey
    simp only [reduceCtorEq, false_iff]
    rintro (habsent | hnull' | ⟨hkey', -⟩)
    · cases hkey.symm.trans habsent
    · exact hnull (Option.some.inj (hkey.symm.trans hnull'))
    · exact hstr _ (Option.some.inj (hkey.symm.trans hkey'))

theorem exists_legacyKey_iff {properties : List (String × Json)} :
    (∃ target, LegacyKey properties target) ↔
      properties.lookup "key" = none ∨ properties.lookup "key" = some .null ∨
        ∃ text, properties.lookup "key" = some (.str text) ∧ IsTargetText text := by
  constructor
  · rintro ⟨_, habsent | hnull | ⟨hkey, hnamed⟩⟩
    · exact .inl habsent
    · exact .inr (.inl hnull)
    · exact .inr (.inr ⟨_, hkey, exists_isTargetOf_iff.mp ⟨_, hnamed⟩⟩)
  · rintro (habsent | hnull | ⟨text, hkey, htext⟩)
    · exact ⟨_, .absent habsent⟩
    · exact ⟨_, .null hnull⟩
    · obtain ⟨target, hnamed⟩ := exists_isTargetOf_iff.mpr htext
      exact ⟨target, .text hkey hnamed⟩

theorem LegacyKey.eq_level_iff {properties : List (String × Json)} {target : Target}
    (h : LegacyKey properties target) :
    target = .level ↔ properties.lookup "key" = none ∨ properties.lookup "key" = some .null ∨
      properties.lookup "key" = some (.str "-") := by
  cases h with
  | absent key => simp [key]
  | null key => simp [key]
  | text key named => simpa [key] using named.eq_level_iff

theorem legacyEntryOf_iff {member : String × Json} {entry : Entry} :
    LegacyEntryOf member entry ↔ LegacyEntry member entry := by
  obtain ⟨key, node⟩ := member
  constructor
  · rintro ⟨source, rfl, h⟩
    cases node with
    | str text =>
        obtain ⟨target, htarget, h⟩ := bind_eq_ok.mp h
        cases h
        exact .scalar (parse_eq_ok_iff_isTargetOf.mp (Target.parseIn_eq_ok.mp htarget))
    | obj properties =>
        obtain ⟨value, groupKey, inner, hfields, hkey, hinner, rfl⟩ :=
          readLegacyEntry_obj_eq_ok.mp h
        exact .group (readLegacyKey_eq_ok.mp hkey) hfields hinner
    | _ => cases h
  · rintro (⟨named⟩ | ⟨key, fields, read⟩)
    · have htarget := Target.parseIn_eq_ok.mpr (parse_eq_ok_iff_isTargetOf.mpr named)
      exact ⟨_, rfl, bind_eq_ok.mpr ⟨_, htarget, rfl⟩⟩
    · exact ⟨_, rfl, readLegacyEntry_obj_eq_ok.mpr
        ⟨_, _, _, fields, readLegacyKey_eq_ok.mpr key, read, rfl⟩⟩

theorem readLegacyEntries_eq_ok_iff {members : List (String × Json)} {entries : List Entry} :
    readLegacyEntries members = .ok entries ↔ List.Forall₂ LegacyEntry members entries := by
  rw [readLegacyEntries_eq_ok]
  constructor
  · exact List.Forall₂.imp fun _ _ => legacyEntryOf_iff.mp
  · exact List.Forall₂.imp fun _ _ => legacyEntryOf_iff.mpr

theorem target_eq_level_iff_of_legacy (member : String × Json) (entry : Entry)
    (h : LegacyEntry member entry) : entry.target = .level ↔ LegacyTakesLevel member := by
  cases h with
  | scalar named => simpa [LegacyTakesLevel, Entry.target] using named.eq_level_iff
  | group key fields read => simpa [LegacyTakesLevel, Entry.target] using key.eq_level_iff

/-- A member has an entry just when its key and its node are of the layout, as long as the same is
true of the template in its fields. -/
theorem exists_legacyEntry_iff {member : String × Json}
    (hfields : ∀ value, member.2.field? legacyFieldsProperty = some value →
      ((∃ t, ofLegacy value = .ok t) ↔ LegacyLayout value)) :
    (∃ entry, LegacyEntry member entry) ↔ IsPathText member.1 ∧ LegacyNode member.2 := by
  obtain ⟨key, node⟩ := member
  rw [isPathText_iff]
  constructor
  · rintro ⟨_, ⟨named⟩ | ⟨key, fields, read⟩⟩
    · exact ⟨⟨_, rfl⟩, .target (exists_isTargetOf_iff.mp ⟨_, named⟩)⟩
    · exact ⟨⟨_, rfl⟩, .properties fields ((hfields _ fields).mp ⟨_, read⟩)
        (exists_legacyKey_iff.mp ⟨_, key⟩)⟩
  · rintro ⟨⟨source, rfl⟩, htext | ⟨fields, layout, key⟩⟩
    · obtain ⟨target, hnamed⟩ := exists_isTargetOf_iff.mpr htext
      exact ⟨_, .scalar hnamed⟩
    · obtain ⟨inner, hinner⟩ := (hfields _ fields).mpr layout
      obtain ⟨target, hkey⟩ := exists_legacyKey_iff.mpr key
      exact ⟨_, .group hkey fields hinner⟩

theorem exists_ofLegacy_iff (value : Json) :
    (∃ t, ofLegacy value = .ok t) ↔ LegacyLayout value := by
  induction value using Json.field_induction legacyFieldsProperty with
  | step value ih =>
      cases value with
      | arr items =>
          rw [ofLegacy, exists_readPaths_iff]
          constructor
          · exact .paths
          · rintro ⟨each⟩
            exact each
      | obj members =>
          have hmembers : (∀ member ∈ members, ∃ entry, LegacyEntry member entry) ↔
              ∀ member ∈ members, IsPathText member.1 ∧ LegacyNode member.2 :=
            forall₂_congr fun member hmember => exists_legacyEntry_iff (ih members rfl member hmember)
          rw [ofLegacy, exists_readLevel_iff target_eq_level_iff_of_legacy fun _ =>
            readLegacyEntries_eq_ok_iff, hmembers]
          constructor
          · rintro ⟨hmembers, halone⟩
            exact .entries (fun member hmember => (hmembers member hmember).1)
              (fun member hmember => (hmembers member hmember).2) halone
          · rintro (_ | ⟨keys, nodes, alone⟩)
            exact ⟨fun member hmember => ⟨keys member hmember, nodes member hmember⟩, alone⟩
      | _ =>
          constructor
          · rintro ⟨_, ⟨⟩⟩
          · rintro ⟨⟩

/-- The documents that are read as legacy templates are those of the legacy layout, and each member
of a mapping has its entry in the template that is read, in order. -/
theorem ofLegacy_accepts :
    (∀ value, (∃ t, ofLegacy value = .ok t) ↔ LegacyLayout value) ∧
    ∀ members, LegacyLayout (.obj members) → ∃ entries,
      ofLegacy (.obj members) = .ok (.fields entries) ∧
        List.Forall₂ LegacyEntry members entries := by
  refine ⟨exists_ofLegacy_iff, ?_⟩
  intro members h
  obtain ⟨t, ht⟩ := (exists_ofLegacy_iff _).mpr h
  obtain ⟨entries, hentries, -, rfl⟩ := ofLegacy_obj_eq_ok.mp ht
  exact ⟨entries, ht, readLegacyEntries_eq_ok_iff.mp hentries⟩

def tolerantMembers : List (String × Json) :=
  [("-", .str "all"),
    ("list", .obj [("key", .str "all.items"), ("note", .null), ("fields", .obj [
      ("a.b", .obj [("fields", .arr [.str "x"]), ("key", .null)])])])]

def tolerantEntries : List Entry :=
  [.scalar (.path (.ofSegments ["all"])) (.ofSegments ["-"]),
    .group (.path (.ofSegments ["list"])) (.ofSegments ["list"])
      (.path (.ofSegments ["all", "items"]))
      (.fields [.group (.path (.ofSegments ["a", "b"])) (.ofSegments ["a", "b"]) .level
        (.paths [.ofSegments ["x"]])])]

theorem ofLegacy_accepts_tolerant :
    LegacyLayout (.obj tolerantMembers) ∧ ∃ entries,
      ofLegacy (.obj tolerantMembers) = .ok (.fields entries) ∧ entries = tolerantEntries ∧
        List.Forall₂ LegacyEntry tolerantMembers entries := by
  obtain ⟨haccepts, hentries⟩ := ofLegacy_accepts
  have hread : ofLegacy (.obj tolerantMembers) = .ok (.fields tolerantEntries) := by
    rfl
  have hlayout : LegacyLayout (.obj tolerantMembers) := (haccepts _).mp ⟨_, hread⟩
  obtain ⟨entries, hentries, heach⟩ := hentries _ hlayout
  obtain rfl : tolerantEntries = entries := by
    simpa using hread.symm.trans hentries
  exact ⟨hlayout, _, hentries, rfl, heach⟩

end Template

end Reshape
