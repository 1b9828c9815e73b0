import Mathlib.Data.List.Forall2
import Reshape.Proofs.PathText
import Reshape.Proofs.TemplateLevels
import Reshape.Template.Canonical
import Reshape.Template.Legacy

/-!
What a template that is read looks like.

`ofJson_induction` and `ofLegacy_induction` lead from the parts of a document that is read as a
template to the whole, one case for each kind of entry. Both give that every template that is read
is sound: at each level an entry whose target is the level is alone, and the targets are read back
as they are written.
-/

namespace Reshape

/-- Induction over documents whose mappings hold nodes: a property holds of a document if it holds
of what the nodes of the document have at a name, two mappings further down. -/
@[elab_as_elim]
theorem Json.field_induction (name : String) {motive : Json → Prop}
    (step : ∀ value, (∀ members, value = .obj members → ∀ member ∈ members, ∀ inner,
      member.2.field? name = some inner → motive inner) → motive value) (value : Json) :
    motive value := by
  have hboth : motive value ∧ ∀ inner, value.field? name = some inner → motive inner := by
    induction value with
    | obj members ih =>
        constructor
        · apply step
          rintro _ ⟨⟩ member hmember inner hinner
          exact (ih member hmember).2 inner hinner
        · intro inner hinner
          exact (ih _ (Json.mem_of_lookup hinner)).1
    | _ => exact ⟨step _ (by simp), by simp [Json.field?]⟩
  exact hboth.1

namespace Template

theorem forall_of_forall₂ {α β : Type} {R : α → β → Prop} {holds : β → Prop}
    (himp : ∀ a b, R a b → holds b) {left : List α} {right : List β}
    (h : List.Forall₂ R left right) : ∀ b ∈ right, holds b := by
  induction h with
  | nil => simp
  | cons hfirst _ ih => exact List.forall_mem_cons.mpr ⟨himp _ _ hfirst, ih⟩

theorem forall₂_imp_of_mem {α β : Type} {R S : α → β → Prop} {left : List α} {right : List β}
    (himp : ∀ a ∈ left, ∀ b, R a b → S a b) (h : List.Forall₂ R left right) :
    List.Forall₂ S left right := by
  induction h with
  | nil => exact .nil
  | cons hfirst _ ih =>
      obtain ⟨himpFirst, himp⟩ := List.forall_mem_cons.mp himp
      exact .cons (himpFirst _ hfirst) (ih himp)

theorem readPaths_eq_ok {items : List Json} {paths : List Path} :
    readPaths items = .ok paths ↔ items = paths.map fun path => .str path.text := by
  induction items generalizing paths with
  | nil =>
      constructor
      · intro h
        cases h
        rfl
      · intro h
        rw [List.map_eq_nil_iff.mp h.symm]
        rfl
  | cons item items ih =>
      constructor
      · intro h
        cases item with
        | str text =>
            obtain ⟨path, hpath, h⟩ := bind_eq_ok.mp h
            obtain ⟨rest, hrest, h⟩ := bind_eq_ok.mp h
            cases h
            have htext := Path.text_of_parse (Path.parseIn_eq_ok.mp hpath)
            rw [List.map_cons, htext, ← ih.mp hrest]
        | _ => cases h
      · intro h
        cases paths with
        | nil => cases h
        | cons path paths =>
            obtain ⟨rfl, hitems⟩ := List.cons.inj h
            have hpath := Path.parseIn_eq_ok.mpr (Path.parse_text path)
            rw [readPaths, hpath, ih.mpr hitems]
            rfl

/-- An entry whose target is the level is the only one. -/
def LevelAlone (entries : List Entry) : Prop :=
  1 < entries.length → ∀ entry ∈ entries, entry.target ≠ .level

theorem isLevel_eq_true {target : Target} : target.isLevel = true ↔ target = .level := by
  cases target <;> simp [Target.isLevel]

theorem isLevel_eq_false {target : Target} : target.isLevel = false ↔ target ≠ .level := by
  cases target <;> simp [Target.isLevel]

theorem checkLevel_eq_ok {entries others : List Entry} :
    checkLevel entries = .ok others ↔ others = entries ∧ LevelAlone entries := by
  unfold checkLevel
  cases hfind : entries.find? (·.target.isLevel) with
  | none =>
      have hnone : ∀ entry ∈ entries, entry.target ≠ .level := by
        intro entry hentry
        have := List.find?_eq_none.mp hfind entry hentry
        exact isLevel_eq_false.mp (by simpa using this)
      constructor
      · intro h
        cases h
        exact ⟨rfl, fun _ => hnone⟩
      · rintro ⟨rfl, -⟩
        rfl
  | some entry =>
      have htarget := List.find?_some hfind
      have hlevel : entry.target = .level := isLevel_eq_true.mp htarget
      have hentry := List.mem_of_find?_eq_some hfind
      by_cases hlength : 1 < entries.length
      · simp only [hlength, if_true, reduceCtorEq, false_iff]
        rintro ⟨-, halone⟩
        exact halone hlength entry hentry hlevel
      · simp only [hlength, if_false, Except.ok.injEq]
        constructor
        · rintro rfl
          exact ⟨rfl, fun h => (hlength h).elim⟩
        · rintro ⟨rfl, -⟩
          rfl

theorem bind_checkLevel_eq_ok {result : Except TemplateError (List Entry)} {t : Template} :
    (do
      let entries ← result
      return Template.fields (← checkLevel entries)) = .ok t ↔
      ∃ entries, result = .ok entries ∧ LevelAlone entries ∧ t = .fields entries := by
  rw [bind_eq_ok]
  constructor
  · rintro ⟨entries, hentries, hlevel⟩
    obtain ⟨others, hothers, h⟩ := bind_eq_ok.mp hlevel
    obtain ⟨rfl, halone⟩ := checkLevel_eq_ok.mp hothers
    exact ⟨_, hentries, halone, (Except.ok.inj h).symm⟩
  · rintro ⟨entries, hentries, halone, rfl⟩
    refine ⟨entries, hentries, ?_⟩
    rw [checkLevel_eq_ok.mpr ⟨rfl, halone⟩]
    rfl

/-! ### The canonical layout -/

theorem ofJson_obj_eq_ok {members : List (String × Json)} {t : Template} :
    ofJson (.obj members) = .ok t ↔
      ∃ entries, readEntries members = .ok entries ∧ LevelAlone entries ∧ t = .fields entries := by
  rw [ofJson]
  exact bind_checkLevel_eq_ok

theorem readEntries_cons_eq_ok {key : String} {node : Json} {rest : List (String × Json)}
    {entries : List Entry} :
    readEntries ((key, node) :: rest) = .ok entries ↔
      ∃ output entry others, Target.parse key = .ok output ∧
        readEntry key output node = .ok entry ∧ readEntries rest = .ok others ∧
          entries = entry :: others := by
  rw [readEntries, bind_eq_ok]
  constructor
  · rintro ⟨output, houtput, h⟩
    obtain ⟨entry, hentry, h⟩ := bind_eq_ok.mp h
    obtain ⟨others, hothers, h⟩ := bind_eq_ok.mp h
    exact ⟨output, entry, others, Target.parseIn_eq_ok.mp houtput, hentry, hothers,
      (Except.ok.inj h).symm⟩
  · rintro ⟨output, entry, others, houtput, hentry, hothers, rfl⟩
    refine ⟨output, Target.parseIn_eq_ok.mpr houtput, ?_⟩
    rw [hentry, hothers]
    rfl

/-- An entry is read from a member of a canonical template. -/
def EntryOf (member : String × Json) (entry : Entry) : Prop :=
  ∃ output, Target.parse member.1 = .ok output ∧ readEntry member.1 output member.2 = .ok entry

theorem readEntries_eq_ok {members : List (String × Json)} {entries : List Entry} :
    readEntries members = .ok entries ↔ List.Forall₂ EntryOf members entries := by
  induction members generalizing entries with
  | nil => rw [List.forall₂_nil_left_iff, readEntries, Except.ok.injEq, eq_comm]
  | cons member members ih =>
      obtain ⟨key, node⟩ := member
      rw [readEntries_cons_eq_ok, List.forall₂_cons_left_iff]
      constructor
      · rintro ⟨output, entry, others, houtput, hentry, hothers, rfl⟩
        exact ⟨entry, others, ⟨output, houtput, hentry⟩, ih.mp hothers, rfl⟩
      · rintro ⟨entry, others, ⟨output, houtput, hentry⟩, hothers, rfl⟩
        exact ⟨output, entry, others, houtput, hentry, ih.mpr hothers, rfl⟩

theorem readSource_eq_ok {key : String} {properties : List (String × Json)} {source : Path} :
    readSource key properties = .ok source ↔
      properties.lookup sourceProperty = some (.str source.text) := by
  unfold readSource
  split
  · rename_i text hlookup
    rw [Path.parseIn_eq_ok, Path.parse_eq_ok_iff_text, hlookup]
    simp [eq_comm]
  · rename_i other hother hlookup
    simp only [hlookup, reduceCtorEq, Option.some.injEq, false_iff]
    intro h
    exact hother _ h
  · rename_i hlookup
    simp [hlookup]

theorem readGroupKey_eq_none {key : String} {properties : List (String × Json)} :
    readGroupKey key properties = .ok none ↔ properties.lookup groupProperty = none := by
  unfold readGroupKey
  split
  · rename_i hlookup
    simp [hlookup, map_eq_ok]
  · rename_i hlookup
    simp [hlookup]
  · rename_i hlookup
    simp [hlookup]

theorem readGroupKey_eq_some {key : String} {properties : List (String × Json)}
    {groupKey : Target} :
    readGroupKey key properties = .ok (some groupKey) ↔
      properties.lookup groupProperty = some (.str groupKey.text) ∧
        groupKey.reread = groupKey := by
  unfold readGroupKey
  split
  · rename_i text hlookup
    rw [map_eq_ok, hlookup]
    constructor
    · rintro ⟨target, htarget, heq⟩
      cases heq
      obtain ⟨rfl, hreread⟩ := Target.parse_eq_ok_iff_text.mp (Target.parseIn_eq_ok.mp htarget)
      exact ⟨rfl, hreread⟩
    · rintro ⟨htext, hreread⟩
      simp only [Option.some.injEq, Json.str.injEq] at htext
      refine ⟨groupKey, ?_, rfl⟩
      exact Target.parseIn_eq_ok.mpr (Target.parse_eq_ok_iff_text.mpr ⟨htext.symm, hreread⟩)
  · rename_i other hother hlookup
    simp only [hlookup, reduceCtorEq, Option.some.injEq, false_iff]
    rintro ⟨h, -⟩
    exact hother _ h
  · rename_i hlookup
    simp [hlookup]

/-- What a mapping that is read as an entry holds. -/
theorem readEntry_obj_eq_ok {key : String} {output : Target} {properties : List (String × Json)}
    {entry : Entry} :
    readEntry key output (.obj properties) = .ok entry ↔
      unknownProperty? properties = none ∧ ∃ source value inner,
        properties.lookup sourceProperty = some (.str source.text) ∧
        properties.lookup fieldsProperty = some value ∧ ofJson value = .ok inner ∧
        (properties.lookup groupProperty = none ∧ entry = .object output source inner ∨
          ∃ groupKey, properties.lookup groupProperty = some (.str groupKey.text) ∧
            groupKey.reread = groupKey ∧ entry = .group output source groupKey inner) := by
  rw [readEntry, readFields?_eq]
  cases hunknown : unknownProperty? properties with
  | some name => simp
  | none =>
      simp only [bind_eq_ok, true_and]
      constructor
      · rintro ⟨source, hsource, inner, hinner, groupKey?, hgroupKey, h⟩
        have hsource := readSource_eq_ok.mp hsource
        cases hfields : properties.lookup fieldsProperty with
        | none => simp [hfields] at hinner
        | some value =>
            refine ⟨source, value, inner, hsource, rfl, by simpa [hfields] using hinner, ?_⟩
            cases groupKey? with
            | none =>
                exact Or.inl ⟨readGroupKey_eq_none.mp hgroupKey, (Except.ok.inj h).symm⟩
            | some groupKey =>
                obtain ⟨hlookup, hreread⟩ := readGroupKey_eq_some.mp hgroupKey
                exact Or.inr ⟨groupKey, hlookup, hreread, (Except.ok.inj h).symm⟩
      · rintro ⟨source, value, inner, hsource, hfields, hinner, hgroup⟩
        refine ⟨source, readSource_eq_ok.mpr hsource, inner, by simpa [hfields] using hinner, ?_⟩
        rcases hgroup with ⟨hlookup, rfl⟩ | ⟨groupKey, hlookup, hreread, rfl⟩
        · exact ⟨none, readGroupKey_eq_none.mpr hlookup, rfl⟩
        · exact ⟨some groupKey, readGroupKey_eq_some.mpr ⟨hlookup, hreread⟩, rfl⟩

/-- Induction over what is read in the canonical layout. -/
theorem ofJson_induction (motive : Json → Template → Prop)
    (entryMotive : String → Json → Entry → Prop)
    (paths : ∀ items : List Path, motive (.arr (items.map fun p => .str p.text)) (.paths items))
    (fields : ∀ members entries,
      List.Forall₂ (fun member entry => entryMotive member.1 member.2 entry) members entries →
      LevelAlone entries → motive (.obj members) (.fields entries))
    (scalar : ∀ output source, output.reread = output →
      entryMotive output.text (.str source.text) (.scalar output source))
    (object : ∀ output source properties value inner, output.reread = output →
      unknownProperty? properties = none →
      properties.lookup sourceProperty = some (.str source.text) →
      properties.lookup fieldsProperty = some value →
      properties.lookup groupProperty = none → motive value inner →
      entryMotive output.text (.obj properties) (.object output source inner))
    (group : ∀ output source groupKey properties value inner, output.reread = output →
      groupKey.reread = groupKey → unknownProperty? properties = none →
      properties.lookup sourceProperty = some (.str source.text) →
      properties.lookup fieldsProperty = some value →
      properties.lookup groupProperty = some (.str groupKey.text) → motive value inner →
      entryMotive output.text (.obj properties) (.group output source groupKey inner))
    {value : Json} {t : Template} (h : ofJson value = .ok t) : motive value t := by
  induction value using Json.field_induction fieldsProperty generalizing t with
  | step value ih =>
      cases value with
      | arr items =>
          obtain ⟨items', hitems, rfl⟩ := map_eq_ok.mp h
          rw [readPaths_eq_ok.mp hitems]
          exact paths items'
      | obj members =>
          obtain ⟨entries, hentries, halone, rfl⟩ := ofJson_obj_eq_ok.mp h
          refine fields members entries
            (forall₂_imp_of_mem ?_ (readEntries_eq_ok.mp hentries)) halone
          rintro ⟨key, node⟩ hmember entry ⟨output, houtput, hentry⟩
          obtain ⟨rfl, hreread⟩ := Target.parse_eq_ok_iff_text.mp houtput
          cases node with
          | str text =>
              obtain ⟨source, hsource, rfl⟩ := map_eq_ok.mp hentry
              rw [← Path.text_of_parse (Path.parseIn_eq_ok.mp hsource)]
              exact scalar output source hreread
          | obj properties =>
              obtain ⟨hunknown, source, inner, fields, hsource, hfields, hinner, hgroup⟩ :=
                readEntry_obj_eq_ok.mp hentry
              have hmotive := ih members rfl _ hmember inner hfields hinner
              rcases hgroup with ⟨hlookup, rfl⟩ | ⟨groupKey, hlookup, hkey, rfl⟩
              · exact object output source properties inner fields hreread hunknown hsource
                  hfields hlookup hmotive
              · exact group output source groupKey properties inner fields hreread hkey hunknown
                  hsource hfields hlookup hmotive
          | _ => cases hentry
      | _ => cases h

/-! ### The legacy layout -/

theorem ofLegacy_obj_eq_ok {members : List (String × Json)} {t : Template} :
    ofLegacy (.obj members) = .ok t ↔
      ∃ entries, readLegacyEntries members = .ok entries ∧ LevelAlone entries ∧
        t = .fields entries := by
  rw [ofLegacy]
  exact bind_checkLevel_eq_ok

theorem readLegacyEntries_cons_eq_ok {sourceText : String} {node : Json}
    {rest : List (String × Json)} {entries : List Entry} :
    readLegacyEntries ((sourceText, node) :: rest) = .ok entries ↔
      ∃ source entry others, source.text = sourceText ∧
        readLegacyEntry sourceText source node = .ok entry ∧
          readLegacyEntries rest = .ok others ∧ entries = entry :: others := by
  rw [readLegacyEntries, bind_eq_ok]
  constructor
  · rintro ⟨source, hsource, h⟩
    obtain ⟨entry, hentry, h⟩ := bind_eq_ok.mp h
    obtain ⟨others, hothers, h⟩ := bind_eq_ok.mp h
    exact ⟨source, entry, others, Path.text_of_parse (Path.parseIn_eq_ok.mp hsource), hentry,
      hothers, (Except.ok.inj h).symm⟩
  · rintro ⟨source, entry, others, rfl, hentry, hothers, rfl⟩
    refine ⟨source, Path.parseIn_eq_ok.mpr (Path.parse_text source), ?_⟩
    rw [hentry, hothers]
    rfl

/-- An entry is read from a member of a legacy template. -/
def LegacyEntryOf (member : String × Json) (entry : Entry) : Prop :=
  ∃ source : Path, source.text = member.1 ∧ readLegacyEntry member.1 source member.2 = .ok entry

theorem readLegacyEntries_eq_ok {members : List (String × Json)} {entries : List Entry} :
    readLegacyEntries members = .ok entries ↔ List.Forall₂ LegacyEntryOf members entries := by
  induction members generalizing entries with
  | nil => rw [List.forall₂_nil_left_iff, readLegacyEntries, Except.ok.injEq, eq_comm]
  | cons member members ih =>
      obtain ⟨key, node⟩ := member
      rw [readLegacyEntries_cons_eq_ok, List.forall₂_cons_left_iff]
      constructor
      · rintro ⟨source, entry, others, htext, hentry, hothers, rfl⟩
        exact ⟨entry, others, ⟨source, htext, hentry⟩, ih.mp hothers, rfl⟩
      · rintro ⟨entry, others, ⟨source, htext, hentry⟩, hothers, rfl⟩
        exact ⟨source, entry, others, htext, hentry, ih.mpr hothers, rfl⟩

theorem reread_of_readLegacyKey {sourceText : String} {properties : List (String × Json)}
    {groupKey : Target} (h : readLegacyKey sourceText properties = .ok groupKey) :
    groupKey.reread = groupKey := by
  unfold readLegacyKey at h
  split at h
  · exact Target.reread_of_parse (Target.parseIn_eq_ok.mp h)
  · cases h
    rfl
  · cases h
    rfl
  · cases h

theorem readLegacyEntry_obj_eq_ok {sourceText : String} {source : Path}
    {properties : List (String × Json)} {entry : Entry} :
    readLegacyEntry sourceText source (.obj properties) = .ok entry ↔
      ∃ value groupKey inner, properties.lookup legacyFieldsProperty = some value ∧
        readLegacyKey sourceText properties = .ok groupKey ∧ ofLegacy value = .ok inner ∧
          entry = .group (.path source) source groupKey inner := by
  rw [readLegacyEntry, readLegacyFields?_eq]
  cases hfields : properties.lookup legacyFieldsProperty with
  | none => simp
  | some value =>
      simp only [Option.map_some, bind_eq_ok, Option.some.injEq]
      constructor
      · rintro ⟨groupKey, hkey, inner, hinner, h⟩
        exact ⟨value, groupKey, inner, rfl, hkey, hinner, (Except.ok.inj h).symm⟩
      · rintro ⟨_, groupKey, inner, rfl, hkey, hinner, rfl⟩
        exact ⟨groupKey, hkey, inner, hinner, rfl⟩

/-- Induction over what is read in the legacy layout. -/
theorem ofLegacy_induction (motive : Json → Template → Prop)
    (entryMotive : String → Json → Entry → Prop)
    (paths : ∀ items : List Path, motive (.arr (items.map fun p => .str p.text)) (.paths items))
    (fields : ∀ members entries,
      List.Forall₂ (fun member entry => entryMotive member.1 member.2 entry) members entries →
      LevelAlone entries → motive (.obj members) (.fields entries))
    (scalar : ∀ output source, output.reread = output →
      entryMotive source.text (.str output.text) (.scalar output source))
    (group : ∀ source groupKey properties value inner, groupKey.reread = groupKey →
      properties.lookup legacyFieldsProperty = some value →
      readLegacyKey source.text properties = .ok groupKey → motive value inner →
      entryMotive source.text (.obj properties) (.group (.path source) source groupKey inner))
    {value : Json} {t : Template} (h : ofLegacy value = .ok t) : motive value t := by
  induction value using Json.field_induction legacyFieldsProperty generalizing t with
  | step value ih =>
      cases value with
      | arr items =>
          obtain ⟨items', hitems, rfl⟩ := map_eq_ok.mp h
          rw [readPaths_eq_ok.mp hitems]
          exact paths items'
      | obj members =>
          obtain ⟨entries, hentries, halone, rfl⟩ := ofLegacy_obj_eq_ok.mp h
          refine fields members entries
            (forall₂_imp_of_mem ?_ (readLegacyEntries_eq_ok.mp hentries)) halone
          rintro ⟨_, node⟩ hmember entry ⟨source, rfl, hentry⟩
          cases node with
          | str text =>
              obtain ⟨output, houtput, h⟩ := bind_eq_ok.mp hentry
              cases h
              obtain ⟨rfl, hreread⟩ :=
                Target.parse_eq_ok_iff_text.mp (Target.parseIn_eq_ok.mp houtput)
              exact scalar output source hreread
          | obj properties =>
              obtain ⟨inner, groupKey, fields, hfields, hkey, hinner, rfl⟩ :=
                readLegacyEntry_obj_eq_ok.mp hentry
              exact group source groupKey properties inner fields (reread_of_readLegacyKey hkey)
                hfields hkey (ih members rfl _ hmember inner hfields hinner)
          | _ => cases hentry
      | _ => cases h

/-! ### Sound templates -/

/-- What holds at each level of a template that is read. -/
structure Sound (entries : List Entry) : Prop where
  alone : LevelAlone entries
  readable : ∀ entry ∈ entries, entry.target.reread = entry.target

/-- What holds of an entry that is read. -/
def SoundEntry (entry : Entry) : Prop :=
  entry.target.reread = entry.target ∧
    ∀ inner, entry.fields? = some inner → EveryLevel Sound inner

theorem everyLevel_sound {members : List (String × Json)} {entries : List Entry}
    (h : List.Forall₂ (fun _ entry => SoundEntry entry) members entries)
    (halone : LevelAlone entries) : EveryLevel Sound (.fields entries) := by
  have hall : ∀ entry ∈ entries, SoundEntry entry :=
    forall_of_forall₂ (fun _ entry (hentry : SoundEntry entry) => hentry) h
  exact .fields ⟨halone, fun entry hentry => (hall entry hentry).1⟩
    fun entry hentry => (hall entry hentry).2

theorem everyLevel_sound_of_ofJson {value : Json} {t : Template} (h : ofJson value = .ok t) :
    EveryLevel Sound t := by
  refine ofJson_induction (fun _ t => EveryLevel Sound t) (fun _ _ entry => SoundEntry entry)
    ?paths ?fields ?scalar ?object ?group h
  case paths => exact EveryLevel.paths
  case fields => exact fun _ _ => everyLevel_sound
  case scalar =>
    intro output source hreread
    exact ⟨hreread, by simp [Entry.fields?]⟩
  case object =>
    intro output source properties value inner hreread _ _ _ _ hinner
    refine ⟨hreread, ?_⟩
    rintro _ ⟨⟩
    exact hinner
  case group =>
    intro output source groupKey properties value inner _ hreread _ _ _ _ hinner
    refine ⟨hreread, ?_⟩
    rintro _ ⟨⟩
    exact hinner

theorem everyLevel_sound_of_ofLegacy {value : Json} {t : Template} (h : ofLegacy value = .ok t) :
    EveryLevel Sound t := by
  refine ofLegacy_induction (fun _ t => EveryLevel Sound t) (fun _ _ entry => SoundEntry entry)
    ?paths ?fields ?scalar ?group h
  case paths => exact EveryLevel.paths
  case fields => exact fun _ _ => everyLevel_sound
  case scalar =>
    intro output source hreread
    exact ⟨hreread, by simp [Entry.fields?]⟩
  case group =>
    intro source groupKey properties value inner hreread _ _ hinner
    refine ⟨hreread, ?_⟩
    rintro _ ⟨⟩
    exact hinner

end Template

end Reshape
