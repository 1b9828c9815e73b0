import Reshape.Proofs.GroupFusion
import Reshape.Proofs.TemplateReading

/-!
The levels of a template that is read, and what each of them gives.

A template is read only if an entry whose target is the level has the level to itself, at any
depth. So nothing is lost when such an entry takes the place of the mapping that the level would
build: the result is what the entry makes of the value at its source, of whatever kind. All other
levels of entries give mappings, and the lists of paths give sequences. Only of a source with a key
twice would the merge into the empty mapping change what such an entry copies.
-/

namespace Reshape

def Target.path? : Target → Option Path
  | .path p => some p
  | .level => none

/-- The paths that an entry names: its source, its output key and its target. -/
def Entry.paths (entry : Entry) : List Path :=
  entry.source :: [entry.output, entry.target].filterMap Target.path?

namespace Template

open Json

/-- A template is another one or stands inside it, at any depth. -/
inductive LevelOf (level : Template) : Template → Prop
  | whole : LevelOf level level
  | inside {inner : Template} {entry : Entry} {entries : List Entry}
      (member : entry ∈ entries) (fields : entry.fields? = some inner)
      (below : LevelOf level inner) : LevelOf level (.fields entries)

theorem EveryLevel.of_levelOf {holds : List Entry → Prop} {level t : Template}
    (hlevel : LevelOf level t) (h : EveryLevel holds t) : EveryLevel holds level := by
  induction hlevel with
  | whole => exact h
  | inside hmember hfields _ ih => exact ih ((everyLevel_fields.mp h).2 _ hmember _ hfields)

theorem everyLevel_of_levelOf {holds : List Entry → Prop} {t : Template}
    (h : ∀ entries, LevelOf (.fields entries) t → holds entries) : EveryLevel holds t := by
  induction t with
  | fields entries ih =>
      refine .fields (h entries .whole) ?_
      intro entry hentry inner hinner
      exact ih entry hentry inner hinner fun level hlevel => h level (.inside hentry hinner hlevel)
  | paths items => exact .paths items

theorem LevelAlone.eq_singleton {entries : List Entry} (h : LevelAlone entries) {entry : Entry}
    (hentry : entry ∈ entries) (htarget : entry.target = .level) : entries = [entry] := by
  match entries, hentry with
  | [only], hentry => rw [List.mem_singleton.mp hentry]
  | first :: second :: rest, hentry =>
      have hlength : 1 < (first :: second :: rest).length := by
        simp
      exact (h hlength entry hentry htarget).elim

/-- A result is what an entry alone makes of a document: nothing but the value at its source,
reshaped by the template inside the entry if it has one. -/
structure OwnValue (entry : Entry) (source result : Json) : Prop where
  absent : entry.source.resolve source = none → result = .obj []
  copied : ∀ value, entry.source.resolve source = some value → entry.fields? = none →
    result = value
  items : ∀ items inner, entry.source.resolve source = some (.arr items) →
    entry.fields? = some inner → result = .arr (items.map inner.project)
  whole : ∀ value inner, entry.source.resolve source = some value → value.kind ≠ .sequence →
    entry.fields? = some inner → result = inner.project value

theorem project_lone {entry : Entry} (htarget : entry.target = .level) {source : Json}
    (hsource : source.keysDistinct) :
    project (.fields [entry]) source = (contribution? entry source).getD (.obj []) := by
  rw [project_fields]
  cases hvalue : contribution? entry source with
  | none => simp [placements, hvalue, putAll]
  | some value =>
      have hplaced : placements [entry] source = [([], value)] := by
        simp [placements, hvalue, htarget, Target.keys]
      have hdistinct : value.keysDistinct := keysDistinct_contribution? hsource hvalue
      rw [hplaced, putAll_cons]
      exact merge_empty hdistinct

theorem ownValue_project {entry : Entry} (htarget : entry.target = .level) {source : Json}
    (hsource : source.keysDistinct) :
    OwnValue entry source (project (.fields [entry]) source) := by
  rw [project_lone htarget hsource, contribution?_eq]
  constructor
  case absent =>
    intro hvalue
    rw [hvalue]
    rfl
  case copied =>
    intro value hvalue hfields
    rw [hvalue, hfields]
    rfl
  case items =>
    intro items inner hvalue hfields
    rw [hvalue, hfields]
    rfl
  case whole =>
    intro value inner hvalue hkind hfields
    rw [hvalue, hfields]
    exact onEach_of_kind_ne hkind inner.project

/-- What holds of every template that is read, in either layout, and of the templates inside it.
Paths have segments that are not empty and hold no dot. An entry whose target is the level is the
only one. A list of paths gives a sequence and entries with other targets give a mapping, and an
entry that takes the level gives just its own value. -/
theorem levels_of_read {value : Json} {t : Template}
    (h : ofJson value = .ok t ∨ ofLegacy value = .ok t) :
    (∀ items, LevelOf (.paths items) t →
      (∀ p ∈ items, ∀ segment ∈ p.segments, segment ≠ "" ∧ '.' ∉ segment.toList) ∧
      ∀ source, ∃ values, project (.paths items) source = .arr values) ∧
    ∀ entries, LevelOf (.fields entries) t →
      (∀ entry ∈ entries, ∀ p ∈ entry.paths, ∀ segment ∈ p.segments,
        segment ≠ "" ∧ '.' ∉ segment.toList) ∧
      (∀ entry ∈ entries, entry.target = .level → entries = [entry]) ∧
      ((∀ entry ∈ entries, entry.target ≠ .level) →
        ∀ source, ∃ members, project (.fields entries) source = .obj members) ∧
      ∀ entry ∈ entries, entry.target = .level → ∀ source : Json, source.keysDistinct →
        OwnValue entry source (project (.fields entries) source) := by
  have hsound : EveryLevel Sound t := h.elim everyLevel_sound_of_ofJson everyLevel_sound_of_ofLegacy
  constructor
  · intro items _
    exact ⟨fun p _ => p.segments_valid, fun source => ⟨_, rfl⟩⟩
  · intro entries hlevel
    have halone : LevelAlone entries := (everyLevel_fields.mp (hsound.of_levelOf hlevel)).1.alone
    refine ⟨fun _ _ p _ => p.segments_valid, fun _ => halone.eq_singleton, ?_, ?_⟩
    · intro htargets source
      exact exists_members_of_isMapping (isMapping_project htargets source)
    · intro entry hentry htarget source hsource
      rw [halone.eq_singleton hentry htarget]
      exact ownValue_project htarget hsource

def copyingEntry : Entry :=
  .scalar .level (.ofSegments ["a", "b"])

def nestedDocument : Json :=
  .obj [("all", .obj [("sourcePath", .str "list"), ("fields", .obj [("-", .str "a.b")])]),
    ("name", .str "name")]

def nestedTemplate : Template :=
  .fields [.object (.path (.ofSegments ["all"])) (.ofSegments ["list"]) (.fields [copyingEntry]),
    .scalar (.path (.ofSegments ["name"])) (.ofSegments ["name"])]

def keylessDocument : Json :=
  .obj [("list", .obj [("fields", .arr [.str "x"])])]

def keylessEntry : Entry :=
  .group (.path (.ofSegments ["list"])) (.ofSegments ["list"]) .level
    (.paths [.ofSegments ["x"]])

def mappingSource : Json :=
  .obj [("a", .obj [("b", .obj [("p", .null), ("q", .bool true)])])]

def listSource : Json :=
  .obj [("list", .arr [.obj [("x", .null)], .str "y"])]

theorem levels_of_read_nested :
    ofJson nestedDocument = .ok nestedTemplate ∧
    LevelOf (.fields [copyingEntry]) nestedTemplate ∧
    project (.fields [copyingEntry]) mappingSource = .obj [("p", .null), ("q", .bool true)] ∧
    ofLegacy keylessDocument = .ok (.fields [keylessEntry]) ∧
    project (.fields [keylessEntry]) listSource = .arr [.arr [.null], .arr []] := by
  have hnested : ofJson nestedDocument = .ok nestedTemplate := by
    rfl
  have hkeyless : ofLegacy keylessDocument = .ok (.fields [keylessEntry]) := by
    rfl
  have hlevel : LevelOf (.fields [copyingEntry]) nestedTemplate :=
    .inside (List.mem_cons_self ..) rfl .whole
  obtain ⟨-, -, -, hcopied⟩ := (levels_of_read (.inl hnested)).2 _ hlevel
  obtain ⟨-, -, -, hitems⟩ := (levels_of_read (.inr hkeyless)).2 _ .whole
  refine ⟨hnested, hlevel, ?_, hkeyless, ?_⟩
  · exact (hcopied copyingEntry (by simp) rfl mappingSource (by decide)).copied _ rfl rfl
  · exact (hitems keylessEntry (by simp) rfl listSource (by decide)).items _ _ rfl rfl

end Template

end Reshape
