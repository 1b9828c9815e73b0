import Reshape.Proofs.TemplateGrammar

/-!
Which fault of a template is reported.

Both layouts are read member by member, up to the first member at fault, and only then is it asked
whether an entry takes the level from others. So what a mapping is read as is decided by what each
of its members is read as when it stands alone (`read_obj_eq_iff`), and a fault in the fields of a
member is the fault of every mapping around it in which nothing before those fields is at fault
(`Reaches.read_eq_error`).
-/

namespace Reshape

namespace Template

theorem find?_level_eq_some {entries : List Entry} {entry : Entry} :
    entries.find? (·.target.isLevel) = some entry ↔
      ∃ before after, entries = before ++ entry :: after ∧
        (∀ other ∈ before, other.target ≠ .level) ∧ entry.target = .level := by
  rw [List.find?_eq_some_iff_append]
  constructor
  · rintro ⟨hentry, before, after, hentries, hbefore⟩
    refine ⟨before, after, hentries, ?_, isLevel_eq_true.mp hentry⟩
    intro other hother
    exact isLevel_eq_false.mp (by simpa using hbefore other hother)
  · rintro ⟨before, after, hentries, hbefore, hentry⟩
    refine ⟨isLevel_eq_true.mpr hentry, before, after, hentries, ?_⟩
    intro other hother
    rw [isLevel_eq_false.mpr (hbefore other hother)]
    rfl

/-- A level that is shared is at fault for the first of its entries that takes it. -/
theorem checkLevel_eq_error {entries : List Entry} {error : TemplateError} :
    checkLevel entries = .error error ↔
      1 < entries.length ∧ ∃ before entry after, entries = before ++ entry :: after ∧
        (∀ other ∈ before, other.target ≠ .level) ∧ entry.target = .level ∧
          error = .entry entry.output.text .levelShared := by
  unfold checkLevel
  constructor
  · intro h
    split at h
    · rename_i entry hentry
      split at h
      · rename_i hlength
        cases h
        obtain ⟨before, after, hentries, hbefore, hlevel⟩ := find?_level_eq_some.mp hentry
        exact ⟨hlength, before, entry, after, hentries, hbefore, hlevel, rfl⟩
      · cases h
    · cases h
  · rintro ⟨hlength, before, entry, after, hentries, hbefore, hlevel, rfl⟩
    rw [find?_level_eq_some.mpr ⟨before, after, hentries, hbefore, hlevel⟩]
    exact if_pos hlength

/-- The two layouts of a template in a document. -/
inductive Layout where
  | canonical
  | legacy

namespace Layout

/-- Reads a template in a layout. -/
def read : Layout → Json → Except TemplateError Template
  | .canonical => ofJson
  | .legacy => ofLegacy

/-- Reads the entry that a member of a mapping describes. -/
def readMember : Layout → String × Json → Except TemplateError Entry
  | .canonical, (key, node) => do readEntry key (← Target.parseIn key) node
  | .legacy, (sourceText, node) => do readLegacyEntry sourceText (← Path.parseIn sourceText) node

theorem readEntries_eq_mapM (members : List (String × Json)) :
    readEntries members = members.mapM (readMember .canonical) := by
  induction members with
  | nil => rfl
  | cons member members ih =>
      rw [readEntries, List.mapM_cons, ih]
      simp [readMember]

theorem readLegacyEntries_eq_mapM (members : List (String × Json)) :
    readLegacyEntries members = members.mapM (readMember .legacy) := by
  induction members with
  | nil => rfl
  | cons member members ih =>
      rw [readLegacyEntries, List.mapM_cons, ih]
      simp [readMember]

theorem read_obj (layout : Layout) (members : List (String × Json)) :
    layout.read (.obj members) = do
      let entries ← members.mapM layout.readMember
      return .fields (← checkLevel entries) := by
  cases layout with
  | canonical => rw [read, ofJson, readEntries_eq_mapM]
  | legacy => rw [read, ofLegacy, readLegacyEntries_eq_mapM]

/-- An entry that stands alone may take the level. -/
theorem read_alone (layout : Layout) (member : String × Json) :
    layout.read (.obj [member]) = (layout.readMember member).map fun entry => .fields [entry] := by
  rw [read_obj, List.mapM_cons, List.mapM_nil]
  cases layout.readMember member with
  | error error => rfl
  | ok entry =>
      have hlevel : checkLevel [entry] = .ok [entry] :=
        checkLevel_eq_ok.mpr ⟨rfl, fun h => absurd h (Nat.lt_irrefl 1)⟩
      change (do return Template.fields (← checkLevel [entry])) = .ok (.fields [entry])
      rw [hlevel]
      rfl

theorem read_alone_eq_error {layout : Layout} {member : String × Json} {error : TemplateError} :
    layout.read (.obj [member]) = .error error ↔ layout.readMember member = .error error := by
  rw [read_alone]
  cases layout.readMember member <;> simp [Except.map]

theorem read_alone_eq_ok {layout : Layout} {member : String × Json} {t : Template} :
    layout.read (.obj [member]) = .ok t ↔
      ∃ entry, layout.readMember member = .ok entry ∧ .fields [entry] = t := by
  rw [read_alone]
  exact map_eq_ok

/-- Members are read as entries, each of them alone. -/
def ReadAlone (layout : Layout) : List (String × Json) → List Entry → Prop :=
  List.Forall₂ fun member entry => layout.read (.obj [member]) = .ok (.fields [entry])

theorem mapM_readMember_eq_ok {layout : Layout} {members : List (String × Json)}
    {entries : List Entry} :
    members.mapM layout.readMember = .ok entries ↔ layout.ReadAlone members entries := by
  rw [mapM_eq_ok, ReadAlone]
  simp [read_alone_eq_ok]

theorem mapM_readMember_eq_error {layout : Layout} {members : List (String × Json)}
    {error : TemplateError} :
    members.mapM layout.readMember = .error error ↔
      ∃ before member after, members = before ++ member :: after ∧
        (∀ other ∈ before, ∃ t, layout.read (.obj [other]) = .ok t) ∧
        layout.read (.obj [member]) = .error error := by
  rw [mapM_eq_error]
  simp [read_alone_eq_ok, read_alone_eq_error]

theorem read_obj_of_readAlone {layout : Layout} {members : List (String × Json)}
    {entries : List Entry} (h : layout.ReadAlone members entries) :
    layout.read (.obj members) = (checkLevel entries).map .fields := by
  rw [read_obj, mapM_readMember_eq_ok.mpr h]
  change (do return Template.fields (← checkLevel entries)) = _
  cases checkLevel entries <;> rfl

theorem read_obj_of_rejected {layout : Layout} {before after : List (String × Json)}
    {member : String × Json} {error : TemplateError}
    (others : ∀ other ∈ before, ∃ t, layout.read (.obj [other]) = .ok t)
    (fault : layout.read (.obj [member]) = .error error) :
    layout.read (.obj (before ++ member :: after)) = .error error := by
  rw [read_obj, mapM_readMember_eq_error.mpr ⟨before, member, after, rfl, others, fault⟩]
  rfl

/-- What a mapping is read as, in terms of what its members are read as alone. -/
inductive Reads (layout : Layout) :
    List (String × Json) → Except TemplateError Template → Prop
  | rejected {before after : List (String × Json)} {member : String × Json}
      {error : TemplateError} (others : ∀ other ∈ before, ∃ t, layout.read (.obj [other]) = .ok t)
      (fault : layout.read (.obj [member]) = .error error) :
      Reads layout (before ++ member :: after) (.error error)
  | levelShared {members : List (String × Json)} {before after : List Entry} {entry : Entry}
      (each : layout.ReadAlone members (before ++ entry :: after)) (several : 2 ≤ members.length)
      (others : ∀ other ∈ before, other.target ≠ .level) (level : entry.target = .level) :
      Reads layout members (.error (.entry entry.output.text .levelShared))
  | accepted {members : List (String × Json)} {entries : List Entry}
      (each : layout.ReadAlone members entries)
      (alone : 2 ≤ members.length → ∀ entry ∈ entries, entry.target ≠ .level) :
      Reads layout members (.ok (.fields entries))

/-- A mapping is rejected for its first member that is rejected alone, and else for its first entry
that takes the level from others; and else it is read as the entries of its members. -/
theorem read_obj_eq_iff {layout : Layout} {members : List (String × Json)}
    {outcome : Except TemplateError Template} :
    layout.read (.obj members) = outcome ↔ layout.Reads members outcome := by
  constructor
  · rintro rfl
    cases hentries : members.mapM layout.readMember with
    | error error =>
        obtain ⟨before, member, after, rfl, hothers, hfault⟩ :=
          mapM_readMember_eq_error.mp hentries
        rw [read_obj_of_rejected hothers hfault]
        exact .rejected hothers hfault
    | ok entries =>
        have heach := mapM_readMember_eq_ok.mp hentries
        rw [read_obj_of_readAlone heach]
        cases hlevel : checkLevel entries with
        | error error =>
            obtain ⟨hlength, before, entry, after, rfl, hothers, htarget, rfl⟩ :=
              checkLevel_eq_error.mp hlevel
            exact .levelShared heach (heach.length_eq ▸ hlength) hothers htarget
        | ok entries' =>
            obtain ⟨rfl, halone⟩ := checkLevel_eq_ok.mp hlevel
            exact .accepted heach fun hlength => halone (heach.length_eq ▸ hlength)
  · rintro (⟨hothers, hfault⟩ | ⟨heach, hseveral, hothers, hlevel⟩ | ⟨heach, halone⟩)
    · exact read_obj_of_rejected hothers hfault
    · have hlength := heach.length_eq ▸ hseveral
      rw [read_obj_of_readAlone heach,
        checkLevel_eq_error.mpr ⟨hlength, _, _, _, rfl, hothers, hlevel, rfl⟩]
      rfl
    · have hlevel := checkLevel_eq_ok.mpr ⟨rfl, fun hlength => halone (heach.length_eq ▸ hlength)⟩
      rw [read_obj_of_readAlone heach, hlevel]
      rfl

/-! ### Faults inside -/

/-- A value stands in the fields of a member, and nothing that is looked at before them is at
fault. -/
inductive Opens : Layout → String × Json → Json → Prop
  | canonical {key text : String} {properties : List (String × Json)} {value : Json}
      (output : IsTargetText key)
      (known : ∀ property ∈ properties,
        property.1 = "sourcePath" ∨ property.1 = "fields" ∨ property.1 = "groupKey")
      (sourcePath : properties.lookup "sourcePath" = some (.str text)) (source : IsPathText text)
      (fields : properties.lookup "fields" = some value) :
      Opens .canonical (key, .obj properties) value
  | legacy {key : String} {properties : List (String × Json)} {value : Json} {groupKey : Target}
      (source : IsPathText key) (fields : properties.lookup "fields" = some value)
      (groupKey : LegacyKey properties groupKey) :
      Opens .legacy (key, .obj properties) value

/-- The fault of the fields of a member is the fault of the member. -/
theorem Opens.read_eq_error {layout : Layout} {member : String × Json} {value : Json}
    {error : TemplateError} (h : layout.Opens member value)
    (hvalue : layout.read value = .error error) : layout.read (.obj [member]) = .error error := by
  rw [read_alone_eq_error]
  cases h with
  | canonical output known sourcePath source fields =>
      obtain ⟨target, htarget⟩ := Target.exists_parse_iff.mpr output
      obtain ⟨p, rfl⟩ := isPathText_iff.mp source
      refine bind_eq_error.mpr (.inr ⟨target, Target.parseIn_eq_ok.mpr htarget, ?_⟩)
      have hfields := (readFields?_eq _).trans (congrArg (Option.map ofJson) fields)
      rw [readEntry, unknownProperty?_eq_none_iff.mpr known]
      refine bind_eq_error.mpr (.inr ⟨p, readSource_eq_ok.mpr sourcePath, ?_⟩)
      rw [hfields]
      exact bind_eq_error.mpr (.inl hvalue)
  | legacy source fields groupKey =>
      obtain ⟨p, rfl⟩ := isPathText_iff.mp source
      refine bind_eq_error.mpr (.inr ⟨p, Path.parseIn_eq_ok.mpr (Path.parse_text p), ?_⟩)
      have hfields := (readLegacyFields?_eq _).trans (congrArg (Option.map ofLegacy) fields)
      rw [readLegacyEntry, hfields]
      refine bind_eq_error.mpr (.inr ⟨_, readLegacyKey_eq_ok.mpr groupKey, ?_⟩)
      exact bind_eq_error.mpr (.inl hvalue)

/-- A value stands in the fields of a member of a document, at any depth, and at each level on the
way nothing that is looked at before those fields is at fault. -/
inductive Reaches (layout : Layout) (value : Json) : Json → Prop
  | here : Reaches layout value value
  | inside (before : List (String × Json)) {after : List (String × Json)}
      {member : String × Json} {inner : Json}
      (others : ∀ other ∈ before, ∃ t, layout.read (.obj [other]) = .ok t)
      (opens : layout.Opens member inner) (reaches : layout.Reaches value inner) :
      Reaches layout value (.obj (before ++ member :: after))

theorem Reaches.read_eq_error {layout : Layout} {value whole : Json} {error : TemplateError}
    (h : layout.Reaches value whole) (hvalue : layout.read value = .error error) :
    layout.read whole = .error error := by
  induction h with
  | here => exact hvalue
  | inside before others opens _ ih => exact read_obj_of_rejected others (opens.read_eq_error ih)

/-- What a mapping is read as is decided by what its members are read as alone, faults of members
first; and a fault inside is the fault of all around it, whatever else is at fault there behind it
or for the level as a whole. -/
theorem reads_members (layout : Layout) :
    (∀ members outcome, layout.read (.obj members) = outcome ↔ layout.Reads members outcome) ∧
    ∀ value whole error, layout.Reaches value whole → layout.read value = .error error →
      layout.read whole = .error error := by
  constructor
  · intro members outcome
    exact read_obj_eq_iff
  · intro value whole error hreaches hvalue
    exact hreaches.read_eq_error hvalue

def faultyPaths : Json :=
  .arr [.str "g", .null, .str ""]

def faultyFields : Json :=
  .obj [("c", .str "d"), ("e", .obj [("fields", faultyPaths), ("sourcePath", .str "f")]),
    ("-", .str "h")]

def faultyDocument : Json :=
  .obj [("a", .str "x"),
    ("b", .obj [("sourcePath", .str "list"), ("groupKey", .null), ("fields", faultyFields)]),
    ("-", .str "all"), ("..", .str "y")]

def sharedMembers : List (String × Json) :=
  [("x", .str "a"), ("p", .obj [("fields", .arr [.str "y"])]), ("q", .str "-")]

theorem reads_members_several :
    (canonical.Reaches faultyPaths faultyDocument ∧
      canonical.read faultyPaths = .error (.shape (.notPath .null)) ∧
      canonical.read faultyDocument = .error (.shape (.notPath .null))) ∧
    legacy.Reads sharedMembers (.error (.entry "p" .levelShared)) ∧
      legacy.read (.obj sharedMembers) = .error (.entry "p" .levelShared) := by
  have hfields : canonical.Reaches faultyPaths faultyFields := by
    refine .inside [_] ?_ (.canonical (.inr ⟨?_, ?_⟩) ?_ rfl ⟨?_, ?_⟩ rfl) .here
    · simpa using ⟨_, rfl⟩
    all_goals decide
  have hdocument : canonical.Reaches faultyPaths faultyDocument := by
    refine .inside [_] ?_ (.canonical (.inr ⟨?_, ?_⟩) ?_ rfl ⟨?_, ?_⟩ rfl) hfields
    · simpa using ⟨_, rfl⟩
    all_goals decide
  have hshared : legacy.read (.obj sharedMembers) = .error (.entry "p" .levelShared) := by
    rfl
  exact ⟨⟨hdocument, rfl, (reads_members canonical).2 _ _ _ hdocument rfl⟩,
    ((reads_members legacy).1 _ _).mp hshared, hshared⟩

end Layout

end Template

end Reshape
