import Mathlib.Data.List.Induction
import Reshape.Proofs.DistinctKeys
import Reshape.Proofs.GroupFusion

/-!
The order of keys in a result.

A key gets its place when it is first written and keeps it, whatever is merged into its value later.
So the keys of a mapping in a result stand in the order in which the targets of the template first
lead through them. For the result itself that needs no more than targets that are paths
(`keys_project`). A mapping further down may be replaced when targets overlap, and where they are
apart each value put at a path finds only mappings on its way (`Passable`).
-/

namespace Reshape.Json

theorem eraseDups_append_singleton (keys : List String) (key : String) :
    (keys ++ [key]).eraseDups =
      keys.eraseDups ++ if key ∈ keys.eraseDups then [] else [key] := by
  rw [List.eraseDups_append, List.cons_removeAll]
  by_cases hkey : key ∈ keys
  · simp [hkey]
  · simp [hkey, List.eraseDups_cons]

/-! ### Paths that go on -/

/-- The key that comes next on a path which goes on behind some keys. -/
def next? (keys path : List String) : Option String :=
  if keys <+: path then path[keys.length]? else none

theorem next?_nil : next? [] = List.head? := by
  funext path
  rw [next?, if_pos List.nil_prefix, List.length_nil, List.head?_eq_getElem?]

theorem next?_append_cons (keys : List String) (key : String) (rest : List String) :
    next? keys (keys ++ key :: rest) = some key := by
  rw [next?, if_pos (List.prefix_append ..)]
  simp

theorem next?_of_apart {keys path : List String} (h : Apart keys path) : next? keys path = none :=
  if_neg h.1

theorem apart_or_exists_append {keys path : List String} (h : ¬ path <+: keys) :
    Apart keys path ∨ ∃ key rest, path = keys ++ key :: rest := by
  by_cases hleads : keys <+: path
  · obtain ⟨rest, rfl⟩ := hleads
    cases rest with
    | nil =>
        rw [List.append_nil] at h
        exact (h List.prefix_rfl).elim
    | cons key rest => exact .inr ⟨key, rest, rfl⟩
  · exact .inl ⟨hleads, h⟩

theorem ne_nil_of_not_before {keys path : List String} (h : ¬ path <+: keys) : path ≠ [] := by
  rintro rfl
  exact h List.nil_prefix

/-! ### Ways through mappings -/

/-- Following keys meets nothing but mappings, up to the end or to the first key that is missing. -/
def Passable : List String → Json → Prop
  | [], value => value.isMapping
  | key :: keys, value =>
      value.isMapping ∧ ∀ inner, value.field? key = some inner → Passable keys inner

theorem Passable.isMapping {keys : List String} {value : Json} (h : Passable keys value) :
    value.isMapping := by
  cases keys with
  | nil => exact h
  | cons key keys => exact h.1

theorem passable_empty (keys : List String) : Passable keys (.obj []) := by
  cases keys with
  | nil => rfl
  | cons key keys => exact ⟨rfl, by simp [field?]⟩

theorem Passable.merge_nest {keys path : List String} {base : Json} (h : Passable keys base)
    (hpath : ¬ path <+: keys) (value : Json) : Passable keys (merge base (nest path value)) := by
  induction keys generalizing path base with
  | nil =>
      show (merge base (nest path value)).isMapping
      rw [isMapping_merge]
      exact isMapping_nest (ne_nil_of_not_before hpath) value
  | cons key keys ih =>
      obtain ⟨name, path, rfl⟩ := List.exists_cons_of_ne_nil (ne_nil_of_not_before hpath)
      obtain ⟨members, rfl⟩ := exists_members_of_isMapping h.isMapping
      refine ⟨rfl, ?_⟩
      intro inner hinner
      change (amend name _ members).lookup key = some inner at hinner
      rw [lookup_amend] at hinner
      by_cases hkey : key = name
      · subst hkey
        have hrest : ¬ path <+: keys := fun hleads =>
          hpath (List.cons_prefix_cons.mpr ⟨rfl, hleads⟩)
        rw [if_pos rfl, Option.some.injEq] at hinner
        subst hinner
        cases hheld : members.lookup key with
        | none =>
            -- The key is new, so it is as if the value were put in an empty mapping.
            have hempty := ih (passable_empty keys) hrest
            rwa [merge_empty_nest (ne_nil_of_not_before hrest)] at hempty
        | some held => exact ih (h.2 held hheld) hrest
      · rw [if_neg hkey] at hinner
        exact h.2 inner hinner

theorem Passable.putAll {keys : List String} {base : Json} (h : Passable keys base)
    {placed : List (List String × Json)} (hplaced : ∀ placement ∈ placed, ¬ placement.1 <+: keys) :
    Passable keys (putAll base placed) := by
  induction placed generalizing base with
  | nil => exact h
  | cons placement placed ih =>
      obtain ⟨hfirst, hplaced⟩ := List.forall_mem_cons.mp hplaced
      exact ih (h.merge_nest hfirst placement.2) hplaced

/-! ### Keys of the mapping at a path -/

/-- The keys of the mapping to which some keys lead. -/
def keysAt (keys : List String) (value : Json) : List String :=
  match descend? keys value with
  | some (.obj members) => members.map Prod.fst
  | _ => []

theorem keysAt_cons_obj (key : String) (keys : List String) (members : List (String × Json)) :
    keysAt (key :: keys) (.obj members) = (members.lookup key).elim [] (keysAt keys) := by
  rw [keysAt, descend?_cons_obj]
  cases members.lookup key <;> rfl

theorem keysAt_empty (keys : List String) : keysAt keys (.obj []) = [] := by
  cases keys <;> rfl

/-- A value that is put further down a path adds the next key to those that are there, if it is
new. -/
theorem keysAt_merge_nest {keys : List String} {base : Json} (h : Passable keys base)
    (key : String) (rest : List String) (value : Json) :
    keysAt keys (merge base (nest (keys ++ key :: rest) value)) =
      keysAt keys base ++ if key ∈ keysAt keys base then [] else [key] := by
  induction keys generalizing base with
  | nil =>
      obtain ⟨members, rfl⟩ := exists_members_of_isMapping h
      exact keys_amend key _ members
  | cons name keys ih =>
      obtain ⟨members, rfl⟩ := exists_members_of_isMapping h.isMapping
      rw [List.cons_append, merge_nest_cons, keysAt_cons_obj, keysAt_cons_obj, lookup_amend,
        if_pos rfl]
      cases hheld : members.lookup name with
      | none =>
          have hbelow : keys ++ key :: rest ≠ [] := by simp
          have hempty := ih (passable_empty keys)
          rwa [merge_empty_nest hbelow, keysAt_empty] at hempty
      | some held => exact ih (h.2 held hheld)

theorem keysAt_merge_nest_of_apart {keys path : List String} (h : Apart keys path)
    (base value : Json) : keysAt keys (merge base (nest path value)) = keysAt keys base := by
  rw [keysAt, keysAt, descend?_merge_nest_of_apart h]

/-- Values that are put at paths none of which ends on the way make a mapping whose keys come in the
order in which the paths first go on there. -/
theorem keysAt_putAll {keys : List String} {placed : List (List String × Json)}
    (hplaced : ∀ placement ∈ placed, ¬ placement.1 <+: keys) :
    keysAt keys (putAll (.obj []) placed) =
      ((placed.map Prod.fst).filterMap (next? keys)).eraseDups := by
  induction placed using List.reverseRecOn with
  | nil => exact keysAt_empty keys
  | append_singleton placed placement ih =>
      obtain ⟨hplaced, hlast⟩ := List.forall_mem_append.mp hplaced
      have hheld := ih hplaced
      have hlast : ¬ placement.1 <+: keys := hlast placement (by simp)
      rw [putAll_append, List.map_append, List.filterMap_append]
      rcases apart_or_exists_append hlast with hapart | ⟨key, rest, hpath⟩
      · have hnext : ([placement].map Prod.fst).filterMap (next? keys) = [] := by
          simp [next?_of_apart hapart]
        rw [hnext, List.append_nil, ← hheld]
        exact keysAt_merge_nest_of_apart hapart _ placement.2
      · have hnext : ([placement].map Prod.fst).filterMap (next? keys) = [key] := by
          simp [hpath, next?_append_cons]
        rw [hnext, eraseDups_append_singleton, ← hheld, putAll_cons, hpath]
        exact keysAt_merge_nest ((passable_empty keys).putAll hplaced) key rest placement.2

end Reshape.Json

namespace Reshape.Template

open Json

/-- The key paths of the targets of the entries whose source is present, in the order of the
template. -/
def presentTargets (entries : List Entry) (source : Json) : List (List String) :=
  (entries.filter (present source)).map (·.target.keys)

theorem map_fst_placements (entries : List Entry) (source : Json) :
    (placements entries source).map Prod.fst = presentTargets entries source := by
  induction entries with
  | nil => rfl
  | cons entry entries ih =>
      rw [presentTargets, List.filter_cons, ← isSome_contribution?, placements,
        List.filterMap_cons]
      cases contribution? entry source with
      | none => exact ih
      | some value => exact congrArg (entry.target.keys :: ·) ih

/-- The keys of a result come in the order of the template: they are the first keys of the targets
of the entries whose source is present, each where it comes first. Where targets are apart, the same
holds of the keys of every mapping on the way to the target of such an entry, with the keys by which
the targets go on there. -/
theorem keys_project {entries : List Entry} (hpaths : ∀ entry ∈ entries, entry.target ≠ .level)
    (source : Json) :
    (∃ members, project (.fields entries) source = .obj members ∧
      members.map Prod.fst =
        ((presentTargets entries source).filterMap List.head?).eraseDups) ∧
    (TargetsApart entries → ∀ path ∈ presentTargets entries source,
      ∀ keys, keys <+: path → keys ≠ path →
        ∃ members, descend? keys (project (.fields entries) source) = some (.obj members) ∧
          members.map Prod.fst =
            ((presentTargets entries source).filterMap (next? keys)).eraseDups) := by
  constructor
  · obtain ⟨members, hmembers⟩ := exists_members_of_isMapping (isMapping_project hpaths source)
    have hplaced : ∀ placement ∈ placements entries source, ¬ placement.1 <+: [] := by
      intro placement hplaced hnil
      exact keys_ne_nil_of_mem_placements hpaths hplaced (List.prefix_nil.mp hnil)
    have hkeys := keysAt_putAll hplaced
    rw [← project_fields, hmembers, map_fst_placements, next?_nil] at hkeys
    exact ⟨members, hmembers, hkeys⟩
  · intro h path hpath keys hleads hne
    obtain ⟨entry, hfiltered, rfl⟩ := List.mem_map.mp hpath
    obtain ⟨hentry, hpresent⟩ := List.mem_filter.mp hfiltered
    have hplaced : ∀ placement ∈ placements entries source, ¬ placement.1 <+: keys := by
      intro placement hplaced hends
      obtain ⟨other, hother, -, htarget⟩ := mem_placements.mp hplaced
      rw [← htarget] at hends
      -- A target that ends on the way is a prefix of the one to which the way leads.
      by_cases hsame : other = entry
      · rw [hsame] at hends
        exact hne (hleads.eq_of_length_le hends.length_le)
      · exact (h.apart_of_ne hother hentry hsame).1 (hends.trans hleads)
    obtain ⟨members, hmembers⟩ : ∃ members,
        descend? keys (project (.fields entries) source) = some (.obj members) := by
      obtain ⟨value, hvalue⟩ := exists_contribution_of_present hpresent
      have hfound := (descend?_project_target h hentry source).trans hvalue
      obtain ⟨rest, hrest⟩ := hleads
      rw [← hrest] at hfound hne
      exact exists_mapping_of_descend?_append (fun hnil => hne (by simp [hnil])) hfound
    have hkeys := keysAt_putAll hplaced
    rw [← project_fields, keysAt, hmembers, map_fst_placements] at hkeys
    exact ⟨members, hmembers, hkeys⟩

def interleavedEntries : List Entry :=
  [.scalar (.path (.ofSegments ["z", "x"])) (.ofSegments ["one"]),
   .scalar (.path (.ofSegments ["b"])) (.ofSegments ["two"]),
   .scalar (.path (.ofSegments ["c"])) (.ofSegments ["missing"]),
   .object (.path (.ofSegments ["z", "a", "q"])) (.ofSegments ["one"]) (.fields []),
   .scalar (.path (.ofSegments ["z", "y"])) (.ofSegments ["two"])]

def interleavedDocument : Json :=
  .obj [("two", .null), ("one", .bool true)]

theorem keys_project_interleaved :
    (∀ entry ∈ interleavedEntries, entry.target ≠ .level) ∧
    TargetsApart interleavedEntries ∧
    ["z", "x"] ∈ presentTargets interleavedEntries interleavedDocument ∧
    (∃ members, project (.fields interleavedEntries) interleavedDocument = .obj members ∧
      members.map Prod.fst = ["z", "b"]) ∧
    ∃ members, descend? ["z"] (project (.fields interleavedEntries) interleavedDocument) =
        some (.obj members) ∧
      members.map Prod.fst = ["x", "a", "y"] := by
  have hpaths : ∀ entry ∈ interleavedEntries, entry.target ≠ .level := by
    decide
  have hapart : TargetsApart interleavedEntries := ⟨hpaths, by decide⟩
  have hpresent : ["z", "x"] ∈ presentTargets interleavedEntries interleavedDocument := by
    decide
  obtain ⟨hkeys, hbelow⟩ := keys_project hpaths interleavedDocument
  exact ⟨hpaths, hapart, hpresent, hkeys,
    hbelow hapart _ hpresent ["z"] (by decide) (by decide)⟩

end Reshape.Template
