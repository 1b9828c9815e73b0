import Mathlib.Data.List.Basic
import Reshape.Proofs.GroupFusion

/-!
Entries rewritten.

What an entry contributes depends on its source and on the template inside it, and its target says
where that goes, so an entry may be given other places. A copy out of the result of some entries is
the entry whose value it copies, sent to the target of the copy (`project_project`). The entries
inside another entry may stand in its place under dotted paths (`project_dotted`), since what is put
under one key path is merged below it. Only when none of them finds its source do the two forms
differ: the nested one leaves an empty mapping.
-/

namespace Reshape

/-- An entry with another target. A group writes there and is called so too. -/
def Entry.retarget (target : Target) : Entry → Entry
  | .scalar _ source => .scalar target source
  | .object _ source fields => .object target source fields
  | .group _ source _ fields => .group target source target fields

namespace Entry

theorem target_retarget (target : Target) (entry : Entry) :
    (entry.retarget target).target = target := by
  cases entry <;> rfl

theorem target_eq_output {entry : Entry} (h : entry.fields? = none) :
    entry.target = entry.output := by
  cases entry with
  | scalar output source => rfl
  | _ => cases h

end Entry

/-- The path with the segments of one path followed by those of another. -/
def Path.append (first second : Path) : Path where
  segments := first.segments ++ second.segments
  segments_ne_nil := List.append_ne_nil_of_left_ne_nil first.segments_ne_nil _
  segments_valid := List.forall_mem_append.mpr ⟨first.segments_valid, second.segments_valid⟩

theorem Path.resolve_append (first second : Path) (source : Json) :
    (first.append second).resolve source = (first.resolve source).bind second.resolve :=
  Json.descend?_append first.segments second.segments source

/-- A target of a level that stands at a path. -/
def Target.within (path : Path) : Target → Target
  | .path p => .path (path.append p)
  | .level => .path path

theorem Target.keys_within (path : Path) (target : Target) :
    (target.within path).keys = path.segments ++ target.keys := by
  cases target with
  | path p => rfl
  | level => exact (List.append_nil path.segments).symm

/-- An entry that stands in another one, written out with dotted paths: its source lies behind the
source of the other entry and its target behind the target. -/
def Entry.dotted (target source : Path) : Entry → Entry
  | .scalar output path => .scalar (output.within target) (source.append path)
  | .object output path fields => .object (output.within target) (source.append path) fields
  | .group output path groupKey fields =>
      .group output (source.append path) (groupKey.within target) fields

namespace Entry

theorem target_dotted (target source : Path) (entry : Entry) :
    (entry.dotted target source).target = entry.target.within target := by
  cases entry <;> rfl

theorem source_dotted (target source : Path) (entry : Entry) :
    (entry.dotted target source).source = source.append entry.source := by
  cases entry <;> rfl

theorem fields?_dotted (target source : Path) (entry : Entry) :
    (entry.dotted target source).fields? = entry.fields? := by
  cases entry <;> rfl

end Entry

namespace Template

open Json

/-! ### Copies out of a result -/

/-- A copy out of the result of some entries, made to read from their source: it is the entry with
the copied target, sent to the target of the copy. -/
def fromSource (entries : List Entry) (copy : Entry) : Entry :=
  match entries.find? fun entry => entry.target = .path copy.source with
  | some entry => entry.retarget copy.output
  | none => copy

theorem TargetsApart.eq_of_target_eq {entries : List Entry} (h : TargetsApart entries)
    {entry other : Entry} (hentry : entry ∈ entries) (hother : other ∈ entries)
    (htarget : entry.target = other.target) : entry = other := by
  apply Classical.byContradiction
  intro hne
  have hapart := h.apart_of_ne hentry hother hne
  rw [htarget] at hapart
  exact hapart.1 List.prefix_rfl

theorem fromSource_eq {entries : List Entry} (h : TargetsApart entries) {entry copy : Entry}
    (hentry : entry ∈ entries) (htarget : entry.target = .path copy.source) :
    fromSource entries copy = entry.retarget copy.output := by
  cases hfound : entries.find? fun entry => entry.target = .path copy.source with
  | none => exact (List.find?_eq_none.mp hfound entry hentry (by simpa using htarget)).elim
  | some other =>
      have hother : other.target = .path copy.source := by
        simpa using List.find?_some hfound
      have heq : other = entry :=
        h.eq_of_target_eq (List.mem_of_find?_eq_some hfound) hentry (hother.trans htarget.symm)
      rw [fromSource, hfound, heq]

theorem contribution?_retarget (target : Target) (entry : Entry) (source : Json) :
    contribution? (entry.retarget target) source = contribution? entry source := by
  cases entry <;> simp [Entry.retarget, contribution?]

theorem contribution?_copy {entries : List Entry} (h : TargetsApart entries) {entry copy : Entry}
    (hcopy : copy.fields? = none) (hentry : entry ∈ entries)
    (htarget : entry.target = .path copy.source) (source : Json) :
    contribution? copy (project (.fields entries) source) = contribution? entry source := by
  have hfound := descend?_project_target h hentry source
  rw [htarget] at hfound
  rw [contribution?_eq, hcopy, Option.map_id']
  exact hfound

/-- Copying values out of a result is the same as sending the entries that put them there straight
to the targets of the copies. -/
theorem project_project {entries copies : List Entry} (h : TargetsApart entries)
    (hcopies : ∀ copy ∈ copies, copy.fields? = none ∧
      ∃ entry ∈ entries, entry.target = .path copy.source) (source : Json) :
    project (.fields copies) (project (.fields entries) source) =
      project (.fields (copies.map (fromSource entries))) source := by
  have hplaced : placements copies (project (.fields entries) source) =
      placements (copies.map (fromSource entries)) source := by
    rw [placements, placements, List.filterMap_map]
    apply List.filterMap_congr
    intro copy hcopy
    obtain ⟨hscalar, entry, hentry, htarget⟩ := hcopies copy hcopy
    rw [Function.comp_apply, fromSource_eq h hentry htarget, Entry.target_retarget,
      Entry.target_eq_output hscalar, contribution?_copy h hscalar hentry htarget,
      contribution?_retarget]
  rw [project_fields copies, hplaced, project_fields]

def listEntries : List Entry :=
  [.scalar (.path (.ofSegments ["a", "title"])) (.ofSegments ["title"]),
   .group .level (.ofSegments ["authors"]) (.path (.ofSegments ["a", "names"]))
    (.fields [.scalar .level (.ofSegments ["name"])]),
   .object (.path (.ofSegments ["first"])) (.ofSegments ["lead"])
    (.fields [.scalar (.path (.ofSegments ["name"])) (.ofSegments ["name"])]),
   .scalar (.path (.ofSegments ["b"])) (.ofSegments ["missing"])]

/-- Two of the copies write to one place, another writes below it, and one finds nothing. -/
def listCopies : List Entry :=
  [.scalar (.path (.ofSegments ["all"])) (.ofSegments ["a", "names"]),
   .scalar (.path (.ofSegments ["none"])) (.ofSegments ["b"]),
   .scalar (.path (.ofSegments ["all"])) (.ofSegments ["first"]),
   .scalar (.path (.ofSegments ["all", "title"])) (.ofSegments ["a", "title"])]

def listDocument : Json :=
  .obj [("title", .str "t"), ("lead", .obj [("name", .str "n")]),
    ("authors", .arr [.obj [("name", .str "n")], .null])]

theorem project_project_overlapping :
    TargetsApart listEntries ∧
    (∀ copy ∈ listCopies, copy.fields? = none ∧
      ∃ entry ∈ listEntries, entry.target = .path copy.source) ∧
    project (.fields (listCopies.map (fromSource listEntries))) listDocument =
      .obj [("all", .obj [("name", .str "n"), ("title", .str "t")])] := by
  have hapart : TargetsApart listEntries := ⟨by decide, by decide⟩
  have hcopies : ∀ copy ∈ listCopies, copy.fields? = none ∧
      ∃ entry ∈ listEntries, entry.target = .path copy.source := by
    decide
  refine ⟨hapart, hcopies, ?_⟩
  rw [← project_project hapart hcopies]
  rfl

/-! ### Entries written out with dotted paths -/

theorem contribution?_dotted (target path : Path) (entry : Entry) (source : Json) :
    contribution? (entry.dotted target path) source =
      (path.resolve source).bind (contribution? entry) := by
  rw [contribution?_eq, Entry.source_dotted, Entry.fields?_dotted, Path.resolve_append]
  cases path.resolve source with
  | none => rfl
  | some value => exact (contribution?_eq entry value).symm

theorem placements_dotted (target path : Path) (entries : List Entry) (source : Json) :
    placements (entries.map (Entry.dotted target path)) source =
      (path.resolve source).elim [] fun value =>
        (placements entries value).map (beneath target.segments) := by
  cases hvalue : path.resolve source with
  | none =>
      apply placements_eq_nil
      intro dotted hdotted
      obtain ⟨entry, -, rfl⟩ := List.mem_map.mp hdotted
      rw [contribution?_dotted, hvalue]
      rfl
  | some value =>
      rw [placements, List.filterMap_map, Option.elim_some, placements, List.map_filterMap]
      congr 1
      funext entry
      rw [Function.comp_apply, contribution?_dotted, hvalue, Option.bind_some,
        Entry.target_dotted, Target.keys_within, Option.map_map]
      rfl

theorem project_alone {entry : Entry} {key : Path} (htarget : entry.target = .path key)
    (source : Json) :
    project (.fields [entry]) source = (contribution? entry source).elim (.obj []) key.wrap := by
  rw [project_fields, placements, List.filterMap_cons]
  cases contribution? entry source with
  | none => rfl
  | some value =>
      rw [htarget]
      exact merge_empty_nest key.segments_ne_nil value

/-- Values that are put beneath some keys stand there as they stand by themselves, unless there are
none. -/
theorem putAll_empty_beneath {keys : List String} (hkeys : keys ≠ [])
    {placed : List (List String × Json)} (hplaced : placed ≠ [])
    (hpaths : ∀ placement ∈ placed, placement.1 ≠ []) :
    putAll (.obj []) (placed.map (beneath keys)) = nest keys (putAll (.obj []) placed) := by
  obtain ⟨placement, placed, rfl⟩ := List.exists_cons_of_ne_nil hplaced
  rw [putAll_empty_beneath_cons hkeys, putAll_cons, merge_empty_nest (hpaths placement (by simp))]

theorem contribution?_reshaped {entry : Entry} {inner : Template}
    (hfields : entry.fields? = some inner) {source value : Json}
    (hvalue : entry.source.resolve source = some value) (hkind : value.kind ≠ .sequence) :
    contribution? entry source = some (inner.project value) := by
  rw [contribution?_eq, hvalue, hfields]
  exact congrArg some (onEach_of_kind_ne hkind inner.project)

/-- An entry with a template of entries, over anything but a sequence, does what these entries do
when they are written out with dotted paths, as long as one of them finds its source. If the entry
has a value and none of them finds anything in it, the entry leaves an empty mapping at its target
and the dotted entries leave nothing. -/
theorem project_dotted {entry : Entry} {key : Path} {inner : List Entry}
    (htarget : entry.target = .path key) (hfields : entry.fields? = some (.fields inner))
    (hinner : ∀ below ∈ inner, below.target ≠ .level) {source : Json}
    (hsource : ∀ value, entry.source.resolve source = some value → value.kind ≠ .sequence) :
    (∀ value, entry.source.resolve source = some value → (∀ below ∈ inner, ¬ present value below) →
      project (.fields [entry]) source = key.wrap (.obj []) ∧
      project (.fields (inner.map (Entry.dotted key entry.source))) source = .obj []) ∧
    ((∀ value, entry.source.resolve source = some value → ∃ below ∈ inner, present value below) →
      project (.fields [entry]) source =
        project (.fields (inner.map (Entry.dotted key entry.source))) source) := by
  rw [project_alone htarget, project_fields (inner.map _), placements_dotted]
  constructor
  · intro value hvalue hnone
    have hempty : placements inner value = [] := by
      apply placements_eq_nil
      intro below hbelow
      apply contribution?_eq_none
      simpa [present] using hnone below hbelow
    rw [contribution?_reshaped hfields hvalue (hsource value hvalue), hvalue, project_fields,
      Option.elim_some, Option.elim_some, hempty]
    exact ⟨rfl, rfl⟩
  · intro hsome
    cases hvalue : entry.source.resolve source with
    | none =>
        rw [contribution?_eq_none hvalue]
        rfl
    | some value =>
        rw [contribution?_reshaped hfields hvalue (hsource value hvalue), project_fields,
          Option.elim_some, Option.elim_some,
          putAll_empty_beneath key.segments_ne_nil (placements_ne_nil (hsome value hvalue))
            fun _ hplaced => keys_ne_nil_of_mem_placements hinner hplaced]
        rfl

/-- Entries that write over each other and below each other. -/
def conflictingEntries : List Entry :=
  [.scalar (.path (.ofSegments ["a"])) (.ofSegments ["x"]),
   .object (.path (.ofSegments ["a", "b"])) (.ofSegments ["y"])
    (.fields [.scalar .level (.ofSegments ["z"])]),
   .scalar (.path (.ofSegments ["a", "c"])) (.ofSegments ["x"]),
   .scalar (.path (.ofSegments ["d"])) (.ofSegments ["missing"])]

def conflictingGroup : Entry :=
  .group .level (.ofSegments ["in", "issue"]) (.path (.ofSegments ["out", "all"]))
    (.fields conflictingEntries)

def conflictingDotted : List Entry :=
  conflictingEntries.map
    (Entry.dotted (.ofSegments ["out", "all"]) (.ofSegments ["in", "issue"]))

def foundDocument : Json :=
  .obj [("in", .obj [("issue", .obj [("x", .str "x"), ("y", .arr [.obj [("z", .null)], .null])])])]

def emptyDocument : Json :=
  .obj [("in", .obj [("issue", .obj [("w", .null)])])]

theorem project_dotted_conflicting :
    (∀ below ∈ conflictingEntries, below.target ≠ .level) ∧
    (∀ value, conflictingGroup.source.resolve foundDocument = some value →
      value.kind ≠ .sequence) ∧
    project (.fields conflictingDotted) foundDocument =
      .obj [("out", .obj [("all", .obj [("a", .obj [("b", .arr [.null, .obj []]),
        ("c", .str "x")])])])] ∧
    project (.fields [conflictingGroup]) emptyDocument =
      .obj [("out", .obj [("all", .obj [])])] ∧
    project (.fields conflictingDotted) emptyDocument = .obj [] := by
  have htarget : conflictingGroup.target = .path (.ofSegments ["out", "all"]) := by
    rfl
  have hinner : ∀ below ∈ conflictingEntries, below.target ≠ .level := by
    decide
  have hfound : ∀ value, conflictingGroup.source.resolve foundDocument = some value →
      value.kind ≠ .sequence := by
    rintro _ ⟨⟩
    decide
  have hempty : ∀ value, conflictingGroup.source.resolve emptyDocument = some value →
      value.kind ≠ .sequence := by
    rintro _ ⟨⟩
    decide
  have hpresent : ∀ value, conflictingGroup.source.resolve foundDocument = some value →
      ∃ below ∈ conflictingEntries, present value below := by
    rintro _ ⟨⟩
    exact ⟨_, List.mem_cons_self .., rfl⟩
  have hemptied := (project_dotted htarget rfl hinner hempty).1 _ rfl (by decide)
  refine ⟨hinner, hfound, ?_, hemptied.1, hemptied.2⟩
  exact ((project_dotted htarget rfl hinner hfound).2 hpresent).symm

end Template

end Reshape
