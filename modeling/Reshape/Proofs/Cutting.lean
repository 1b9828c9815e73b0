import Mathlib.Data.List.Basic
import Reshape.Proofs.GroupFusion
import Reshape.Proofs.TemplateLevels

/-!
Documents that are picked apart and put together again.

Paths cut a document when none of them is a prefix of another, they stand in the order of the
document, and no value lies outside of all of them. The entries that copy what is at such paths to
the same paths make the document again. Walked member by member, a cut takes the value of a member
as a whole or cuts the mapping there (`Cut`); in both cases merging adds the member with its value
behind those that are there already. The keys of a result cut it, so a result is made again from
its members.
-/

namespace Reshape

namespace Json

/-! ### Parts in document order -/

/-- A part of the value of a key, as a part of the mapping with that key. -/
def under (key : String) (part : List String × Json) : List String × Json :=
  (key :: part.1, part.2)

mutual

/-- The values below the root of a document, each with the keys that lead to it, in the order of
the document. A mapping stands before the values inside it, and sequences are not entered. -/
def parts : Json → List (List String × Json)
  | .obj members => memberParts members
  | _ => []

def memberParts : List (String × Json) → List (List String × Json)
  | [] => []
  | (key, value) :: members =>
      ([key], value) :: (parts value).map (under key) ++ memberParts members

end

theorem mem_memberParts {members : List (String × Json)} {part : List String × Json} :
    part ∈ memberParts members ↔
      ∃ member ∈ members, part = ([member.1], member.2) ∨
        ∃ inner ∈ parts member.2, under member.1 inner = part := by
  induction members with
  | nil => simp [memberParts]
  | cons member members ih =>
      simp only [memberParts, List.mem_append, List.mem_cons, List.mem_map, ih, exists_eq_or_imp]

theorem exists_cons_of_mem_memberParts {members : List (String × Json)}
    {part : List String × Json} (h : part ∈ memberParts members) :
    ∃ key ∈ members.map Prod.fst, ∃ keys, part.1 = key :: keys := by
  obtain ⟨member, hmember, rfl | ⟨inner, -, rfl⟩⟩ := mem_memberParts.mp h
  · exact ⟨member.1, List.mem_map_of_mem hmember, [], rfl⟩
  · exact ⟨member.1, List.mem_map_of_mem hmember, inner.1, rfl⟩

theorem keys_ne_nil_of_mem_parts {document : Json} {part : List String × Json}
    (h : part ∈ parts document) : part.1 ≠ [] := by
  cases document with
  | obj members =>
      obtain ⟨key, -, keys, hkeys⟩ := exists_cons_of_mem_memberParts h
      rw [hkeys]
      exact List.cons_ne_nil key keys
  | _ => simp [parts] at h

theorem descend?_of_mem_parts {document : Json} (hkeys : document.keysDistinct)
    {part : List String × Json} (h : part ∈ parts document) :
    descend? part.1 document = some part.2 := by
  induction document generalizing part with
  | obj members ih =>
      obtain ⟨hnodup, hvalues⟩ := keysDistinct_obj.mp hkeys
      obtain ⟨member, hmember, hpart⟩ := mem_memberParts.mp h
      have hlookup : members.lookup member.1 = some member.2 :=
        (lookup_eq_some_iff_mem hnodup).mpr hmember
      rcases hpart with rfl | ⟨inner, hinner, rfl⟩
      · rw [descend?_cons_obj, hlookup]
        rfl
      · rw [under, descend?_cons_obj, hlookup]
        exact ih member hmember (hvalues member hmember) hinner
  | _ => simp [parts] at h

/-! ### Cuts of members -/

/-- A cut of members: what is taken out of them, with its keys. The value of a member is taken as
a whole, or it is a mapping with members of its own and these are cut. -/
inductive Cut : List (String × Json) → List (List String × Json) → Prop
  | nil : Cut [] []
  | whole {key : String} {value : Json} {members : List (String × Json)}
      {placed : List (List String × Json)} (rest : Cut members placed) :
      Cut ((key, value) :: members) (([key], value) :: placed)
  | inside {key : String} {inner members : List (String × Json)}
      {below placed : List (List String × Json)} (nonempty : inner ≠ []) (cut : Cut inner below)
      (rest : Cut members placed) :
      Cut ((key, .obj inner) :: members) (below.map (under key) ++ placed)

theorem Cut.ne_nil {members : List (String × Json)} {placed : List (List String × Json)}
    (h : Cut members placed) (hmembers : members ≠ []) : placed ≠ [] := by
  induction h with
  | nil => exact (hmembers rfl).elim
  | whole _ _ => simp
  | inside hinner _ _ hbelow _ => simp [hbelow hinner]

theorem Cut.keys_ne_nil {members : List (String × Json)} {placed : List (List String × Json)}
    (h : Cut members placed) : ∀ placement ∈ placed, placement.1 ≠ [] := by
  induction h with
  | nil => simp
  | whole _ ih => exact List.forall_mem_cons.mpr ⟨by simp, ih⟩
  | inside _ _ _ _ ih =>
      refine List.forall_mem_append.mpr ⟨?_, ih⟩
      rintro _ hplacement
      obtain ⟨placement, -, rfl⟩ := List.mem_map.mp hplacement
      exact List.cons_ne_nil _ placement.1

theorem putAll_under {front : List (String × Json)} {key : String}
    (hkey : key ∉ front.map Prod.fst) (held : Json) (below : List (List String × Json)) :
    putAll (.obj (front ++ [(key, held)])) (below.map (under key)) =
      .obj (front ++ [(key, putAll held below)]) := by
  induction below generalizing held with
  | nil => rfl
  | cons placement below ih =>
      rw [List.map_cons, putAll_cons, putAll_cons, under, merge_nest_cons,
        amend_append_of_not_mem _ hkey]
      simpa [amend, mergeOver] using ih (merge held (nest placement.1 placement.2))

theorem putAll_under_new {front : List (String × Json)} {key : String}
    (hkey : key ∉ front.map Prod.fst) {below : List (List String × Json)} (hbelow : below ≠ [])
    (hkeys : ∀ placement ∈ below, placement.1 ≠ []) :
    putAll (.obj front) (below.map (under key)) =
      .obj (front ++ [(key, putAll (.obj []) below)]) := by
  obtain ⟨placement, below, rfl⟩ := List.exists_cons_of_ne_nil hbelow
  rw [List.map_cons, putAll_cons, putAll_cons, merge_empty_nest (hkeys placement (by simp)), under,
    merge_nest_cons, amend_of_not_mem _ hkey]
  exact putAll_under hkey _ below

/-- What a cut takes out of members, put behind other members, makes the members again. -/
theorem Cut.putAll {members : List (String × Json)} {placed : List (List String × Json)}
    (h : Cut members placed) (hmembers : keysDistinct (.obj members))
    (front : List (String × Json)) (hkeys : ((front ++ members).map Prod.fst).Nodup) :
    putAll (.obj front) placed = .obj (front ++ members) := by
  -- The members that are made already stand in front, so the front grows along the cut.
  induction h generalizing front with
  | nil =>
      rw [List.append_nil]
      rfl
  | @whole key value members placed _ ih =>
      obtain ⟨-, -, hmembers⟩ := keysDistinct_obj_cons.mp hmembers
      have hkey : key ∉ front.map Prod.fst :=
        not_mem_of_nodup_append_cons (by simpa using hkeys)
      have hrest := ih hmembers (front ++ [(key, value)]) (by simpa using hkeys)
      rw [putAll_cons, merge_nest_cons, amend_of_not_mem _ hkey]
      simpa [mergeOver, nest] using hrest
  | @inside key inner members below placed hinner hcut _ hbelow ih =>
      obtain ⟨-, hvalue, hmembers⟩ := keysDistinct_obj_cons.mp hmembers
      have hkey : key ∉ front.map Prod.fst :=
        not_mem_of_nodup_append_cons (by simpa using hkeys)
      have hmade := hbelow hvalue [] (keysDistinct_obj.mp hvalue).1
      have hrest := ih hmembers (front ++ [(key, .obj inner)]) (by simpa using hkeys)
      rw [putAll_append, putAll_under_new hkey (hcut.ne_nil hinner) hcut.keys_ne_nil, hmade]
      simpa using hrest

/-! ### Cuts in document order -/

/-- There is nothing below this value: it is no mapping, or an empty one. -/
def IsEnd (value : Json) : Prop :=
  value.isMapping = false ∨ value = .obj []

instance (value : Json) : Decidable (IsEnd value) :=
  inferInstanceAs (Decidable (_ ∨ _))

theorem exists_members_of_not_isEnd {value : Json} (h : ¬ IsEnd value) :
    ∃ members, members ≠ [] ∧ value = .obj members := by
  cases value with
  | obj members => exact ⟨members, fun hnil => h (.inr (congrArg Json.obj hnil)), rfl⟩
  | _ => exact (h (.inl rfl)).elim

/-- Some of the parts that are found, in their order, such that each end among these lies at one
of them or below, but none of them below another. -/
structure Picks (placed found : List (List String × Json)) : Prop where
  apart : placed.Pairwise fun one other => Apart one.1 other.1
  ordered : placed.Sublist found
  covering : ∀ part ∈ found, IsEnd part.2 → ∃ placement ∈ placed, placement.1 <+: part.1

theorem Picks.split {key : String} {members : List (String × Json)}
    (hkey : key ∉ members.map Prod.fst) {placed found : List (List String × Json)}
    (hfound : ∀ part ∈ found, ∃ keys, part.1 = key :: keys)
    (h : Picks placed (found ++ memberParts members)) :
    ∃ first second, placed = first ++ second ∧ Picks first found ∧
      Picks second (memberParts members) := by
  obtain ⟨first, second, rfl, hfirst, hsecond⟩ := List.sublist_append_iff.mp h.ordered
  have hapart : ∀ part ∈ found, ∀ other ∈ memberParts members,
      ¬ part.1 <+: other.1 ∧ ¬ other.1 <+: part.1 := by
    intro part hpart other hother
    obtain ⟨keys, hkeys⟩ := hfound part hpart
    obtain ⟨name, hname, names, hnames⟩ := exists_cons_of_mem_memberParts hother
    have hne : key ≠ name := fun heq => hkey (heq ▸ hname)
    rw [hkeys, hnames]
    exact apart_cons_cons.mpr fun heq => (hne heq).elim
  obtain ⟨hfirstApart, hsecondApart, -⟩ := List.pairwise_append.mp h.apart
  refine ⟨first, second, rfl, ⟨hfirstApart, hfirst, ?_⟩, ⟨hsecondApart, hsecond, ?_⟩⟩
  · intro part hpart hend
    obtain ⟨placement, hplaced, hprefix⟩ := h.covering part (List.mem_append_left _ hpart) hend
    rcases List.mem_append.mp hplaced with hplaced | hplaced
    · exact ⟨placement, hplaced, hprefix⟩
    · exact ((hapart part hpart placement (hsecond.subset hplaced)).2 hprefix).elim
  · intro part hpart hend
    obtain ⟨placement, hplaced, hprefix⟩ := h.covering part (List.mem_append_right _ hpart) hend
    rcases List.mem_append.mp hplaced with hplaced | hplaced
    · exact ((hapart placement (hfirst.subset hplaced) part hpart).1 hprefix).elim
    · exact ⟨placement, hplaced, hprefix⟩

/-- From the parts at and below one key either the value there is picked or parts below it. -/
theorem Picks.at_key {key : String} {value : Json} {placed : List (List String × Json)}
    (h : Picks placed (([key], value) :: (parts value).map (under key))) :
    placed = [([key], value)] ∨
      ∃ members, members ≠ [] ∧ value = .obj members ∧
        ∃ below, placed = below.map (under key) ∧ Picks below (parts value) := by
  rcases List.sublist_cons_iff.mp h.ordered with hordered | ⟨placed, rfl, hordered⟩
  · obtain ⟨below, hbelow, rfl⟩ := List.sublist_map_iff.mp hordered
    right
    have hend : ¬ IsEnd value := by
      intro hend
      obtain ⟨placement, hplaced, hprefix⟩ := h.covering ([key], value) (by simp) hend
      obtain ⟨part, hpart, rfl⟩ := List.mem_map.mp hplaced
      have hnil : part.1 <+: [] := (List.cons_prefix_cons.mp hprefix).2
      exact keys_ne_nil_of_mem_parts (hbelow.subset hpart) (List.prefix_nil.mp hnil)
    obtain ⟨members, hmembers, hvalue⟩ := exists_members_of_not_isEnd hend
    refine ⟨members, hmembers, hvalue, below, rfl, ?_, hbelow, ?_⟩
    · refine (List.pairwise_map.mp h.apart).imp ?_
      intro one other hapart
      exact apart_cons_cons.mp hapart rfl
    · intro part hpart hend
      obtain ⟨placement, hplaced, hprefix⟩ := h.covering (under key part)
        (List.mem_cons_of_mem _ (List.mem_map_of_mem hpart)) hend
      obtain ⟨inner, hinner, rfl⟩ := List.mem_map.mp hplaced
      exact ⟨inner, hinner, (List.cons_prefix_cons.mp hprefix).2⟩
  · left
    have hnone : placed = [] := by
      rw [List.eq_nil_iff_forall_not_mem]
      intro placement hplaced
      obtain ⟨part, -, rfl⟩ := List.mem_map.mp (hordered.subset hplaced)
      exact ((List.pairwise_cons.mp h.apart).1 _ hplaced).1 (by simp [under])
    rw [hnone]

theorem Picks.cut {document : Json} (hkeys : document.keysDistinct)
    {members : List (String × Json)} (hdocument : document = .obj members)
    {placed : List (List String × Json)} (h : Picks placed (parts document)) :
    Cut members placed := by
  induction document generalizing members placed with
  | obj held ih =>
      obtain rfl := Json.obj.inj hdocument
      clear hdocument
      -- The members are walked one by one; the values inside them are left to `ih`.
      induction held generalizing placed with
      | nil =>
          rw [List.sublist_nil.mp h.ordered]
          exact .nil
      | cons member held ihrest =>
          obtain ⟨key, value⟩ := member
          obtain ⟨hkey, hvalue, hheld⟩ := keysDistinct_obj_cons.mp hkeys
          obtain ⟨ihvalue, ih⟩ := List.forall_mem_cons.mp ih
          have hfound : ∀ part ∈ ([key], value) :: (parts value).map (under key),
              ∃ keys, part.1 = key :: keys := by
            refine List.forall_mem_cons.mpr ⟨⟨[], rfl⟩, ?_⟩
            rintro _ hpart
            obtain ⟨part, -, rfl⟩ := List.mem_map.mp hpart
            exact ⟨part.1, rfl⟩
          obtain ⟨first, second, rfl, hfirst, hsecond⟩ := h.split hkey hfound
          have hrest := ihrest ih hheld hsecond
          rcases hfirst.at_key with rfl | ⟨inner, hinner, rfl, below, rfl, hbelow⟩
          · exact .whole hrest
          · exact .inside hinner (ihvalue hvalue rfl hbelow) hrest
  | _ => cases hdocument

theorem Picks.putAll {document : Json} (hmapping : document.isMapping)
    (hkeys : document.keysDistinct) {placed : List (List String × Json)}
    (h : Picks placed (parts document)) : putAll (.obj []) placed = document := by
  obtain ⟨members, rfl⟩ := exists_members_of_isMapping hmapping
  exact (h.cut hkeys rfl).putAll hkeys [] (keysDistinct_obj.mp hkeys).1

theorem picks_members {members : List (String × Json)}
    (hnodup : (members.map Prod.fst).Nodup) :
    Picks (members.map fun member => ([member.1], member.2)) (memberParts members) := by
  constructor
  case apart =>
    refine List.pairwise_map.mpr ((List.pairwise_map.mp hnodup).imp ?_)
    intro one other hne
    exact apart_cons_cons.mpr fun heq => (hne heq).elim
  case ordered =>
    clear hnodup
    induction members with
    | nil => exact List.Sublist.slnil
    | cons member members ih =>
        rw [List.map_cons, memberParts, List.cons_append]
        exact (ih.trans (List.sublist_append_right ..)).cons_cons _
  case covering =>
    intro part hpart _
    obtain ⟨key, hkey, keys, hkeys⟩ := exists_cons_of_mem_memberParts hpart
    obtain ⟨member, hmember, rfl⟩ := List.mem_map.mp hkey
    refine ⟨([member.1], member.2), List.mem_map_of_mem hmember, ?_⟩
    rw [hkeys]
    exact List.cons_prefix_cons.mpr ⟨rfl, List.nil_prefix⟩

/-- The keys of the mapping that values are put into are the first keys of their places. -/
theorem forall_keys_putAll {holds : String → Prop} {base : Json} (hbase : base.isMapping)
    (hheld : ∀ members, base = .obj members → ∀ key ∈ members.map Prod.fst, holds key)
    {placed : List (List String × Json)} (hpaths : ∀ placement ∈ placed, placement.1 ≠ [])
    (hkeys : ∀ placement ∈ placed, ∀ key ∈ placement.1, holds key)
    {members : List (String × Json)} (hmembers : putAll base placed = .obj members) :
    ∀ key ∈ members.map Prod.fst, holds key := by
  induction placed generalizing base with
  | nil => exact hheld members hmembers
  | cons placement placed ih =>
      obtain ⟨hpath, hpaths⟩ := List.forall_mem_cons.mp hpaths
      obtain ⟨hfirst, hkeys⟩ := List.forall_mem_cons.mp hkeys
      obtain ⟨held, rfl⟩ := exists_members_of_isMapping hbase
      obtain ⟨key, keys, hplacement⟩ := List.exists_cons_of_ne_nil hpath
      rw [putAll_cons, hplacement, merge_nest_cons] at hmembers
      refine ih rfl ?_ hpaths hkeys hmembers
      rintro _ ⟨⟩ name hname
      rw [keys_amend] at hname
      rcases List.mem_append.mp hname with hname | hname
      · exact hheld held rfl name hname
      · split at hname
        · cases hname
        · rw [List.mem_singleton.mp hname]
          exact hfirst key (by simp [hplacement])

end Json

namespace Template

open Json

/-- Paths cut a document: none of them is a prefix of another, they stand in the order of the
document, and each value that is no mapping, or is an empty one, lies at one of them or below. -/
structure Cuts (paths : List Path) (document : Json) : Prop where
  apart : paths.Pairwise fun one other => Apart one.segments other.segments
  ordered : (paths.map Path.segments).Sublist ((parts document).map Prod.fst)
  covering : ∀ part ∈ parts document, IsEnd part.2 → ∃ p ∈ paths, p.segments <+: part.1

/-- The template that copies what is at paths to the same paths. -/
def copying (paths : List Path) : Template :=
  .fields (paths.map fun p => .scalar (.path p) p)

theorem placements_copying {paths : List Path} {document : Json}
    {placed : List (List String × Json)} (hpaths : paths.map Path.segments = placed.map Prod.fst)
    (hplaced : ∀ placement ∈ placed, descend? placement.1 document = some placement.2) :
    placements (paths.map fun p => .scalar (.path p) p) document = placed := by
  have hfound : ∀ placement ∈ placed,
      (descend? placement.1 document).map (placement.1, ·) = some placement := by
    intro placement hmem
    rw [hplaced placement hmem]
    rfl
  calc placements (paths.map fun p => .scalar (.path p) p) document
      = (paths.map Path.segments).filterMap fun keys =>
          (descend? keys document).map (keys, ·) := by
        rw [placements, List.filterMap_map, List.filterMap_map]
        rfl
    _ = placed := by
        rw [hpaths, List.filterMap_map]
        exact (List.filterMap_congr hfound).trans List.filterMap_some

theorem Cuts.exists_picks {paths : List Path} {document : Json} (h : Cuts paths document) :
    ∃ placed, paths.map Path.segments = placed.map Prod.fst ∧ Picks placed (parts document) := by
  obtain ⟨placed, hordered, hpaths⟩ := List.sublist_map_iff.mp h.ordered
  refine ⟨placed, hpaths, ?_, hordered, ?_⟩
  · rw [← List.pairwise_map, ← hpaths]
    exact List.pairwise_map.mpr h.apart
  · intro part hpart hend
    obtain ⟨p, hp, hprefix⟩ := h.covering part hpart hend
    have hmem : p.segments ∈ placed.map Prod.fst := hpaths ▸ List.mem_map_of_mem hp
    obtain ⟨placement, hplacement, hkeys⟩ := List.mem_map.mp hmem
    exact ⟨placement, hplacement, hkeys ▸ hprefix⟩

theorem cuts_of_picks {paths : List Path} {document : Json} {placed : List (List String × Json)}
    (hpaths : paths.map Path.segments = placed.map Prod.fst)
    (h : Picks placed (parts document)) : Cuts paths document := by
  constructor
  case apart =>
    rw [← List.pairwise_map (f := Path.segments), hpaths]
    exact List.pairwise_map.mpr h.apart
  case ordered =>
    rw [hpaths]
    exact h.ordered.map Prod.fst
  case covering =>
    intro part hpart hend
    obtain ⟨placement, hplacement, hprefix⟩ := h.covering part hpart hend
    have hmem : placement.1 ∈ paths.map Path.segments := hpaths ▸ List.mem_map_of_mem hplacement
    obtain ⟨p, hp, hkeys⟩ := List.mem_map.mp hmem
    exact ⟨p, hp, hkeys ▸ hprefix⟩

theorem project_copying {paths : List Path} {document : Json} (hmapping : document.isMapping)
    (hkeys : document.keysDistinct) (h : Cuts paths document) :
    (copying paths).project document = document := by
  obtain ⟨placed, hpaths, hpicks⟩ := h.exists_picks
  have hplaced : ∀ placement ∈ placed, descend? placement.1 document = some placement.2 :=
    fun placement hmem => descend?_of_mem_parts hkeys (hpicks.ordered.subset hmem)
  rw [copying, project_fields, placements_copying hpaths hplaced]
  exact hpicks.putAll hmapping hkeys

/-! ### The keys of a result -/

theorem exists_paths_of_keys {keys : List String}
    (h : ∀ key ∈ keys, key ≠ "" ∧ '.' ∉ key.toList) :
    ∃ paths : List Path, paths.map Path.segments = keys.map fun key => [key] := by
  induction keys with
  | nil => exact ⟨[], rfl⟩
  | cons key keys ih =>
      obtain ⟨hkey, hkeys⟩ := List.forall_mem_cons.mp h
      obtain ⟨paths, hpaths⟩ := ih hkeys
      exact ⟨⟨[key], by simp, by simpa using hkey⟩ :: paths, by simp [hpaths]⟩

/-- The keys of a result are segments of paths, however its targets overlap. -/
theorem valid_keys_project {entries : List Entry}
    (hpaths : ∀ entry ∈ entries, entry.target ≠ .level) {source : Json}
    {members : List (String × Json)} (hresult : project (.fields entries) source = .obj members) :
    ∀ key ∈ members.map Prod.fst, key ≠ "" ∧ '.' ∉ key.toList := by
  rw [project_fields] at hresult
  refine forall_keys_putAll rfl ?_ (fun _ => keys_ne_nil_of_mem_placements hpaths) ?_ hresult
  · rintro _ ⟨⟩ key hkey
    cases hkey
  · intro placement hplaced key hkey
    obtain ⟨entry, hentry, -, htarget⟩ := mem_placements.mp hplaced
    rw [← htarget] at hkey
    cases hentryTarget : entry.target with
    | path p => exact p.segments_valid key (by simpa [hentryTarget, Target.keys] using hkey)
    | level => exact (hpaths entry hentry hentryTarget).elim

/-- A mapping is made again from what is at paths that cut it. The keys of the result of a template
whose entries have paths for targets, which may overlap, cut this result. -/
theorem project_identity :
    (∀ (document : Json) (paths : List Path), document.isMapping → document.keysDistinct →
      Cuts paths document → (copying paths).project document = document) ∧
    ∀ (entries : List Entry) (source : Json), (∀ entry ∈ entries, entry.target ≠ .level) →
      source.keysDistinct →
      ∃ members paths, project (.fields entries) source = .obj members ∧
        paths.map Path.segments = members.map (fun member => [member.1]) ∧
        Cuts paths (.obj members) ∧
        (copying paths).project (.obj members) = .obj members := by
  refine ⟨fun _ _ => project_copying, ?_⟩
  intro entries source hpaths hsource
  obtain ⟨members, hresult⟩ := exists_members_of_isMapping (isMapping_project hpaths source)
  have hkeys : keysDistinct (.obj members) := hresult ▸ keysDistinct_project _ hsource
  obtain ⟨paths, hkeyPaths⟩ := exists_paths_of_keys (valid_keys_project hpaths hresult)
  have hsegments : paths.map Path.segments = members.map fun member => [member.1] := by
    rw [hkeyPaths, List.map_map]
    rfl
  have hcuts : Cuts paths (.obj members) :=
    cuts_of_picks (by rw [hsegments, List.map_map]; rfl)
      (picks_members (keysDistinct_obj.mp hkeys).1)
  exact ⟨members, paths, hresult, hsegments, hcuts, project_copying rfl hkeys hcuts⟩

/-- The last member holds keys that no path has, so it can only be taken as a whole. -/
def cutDocument : Json :=
  .obj [("a", .obj [("x", .null), ("y", .obj [("deep", .obj []), ("list", .arr [.obj []])])]),
    ("b", .obj []), ("c", .obj [("d.e", .null), ("", .bool true)])]

def cutPaths : List Path :=
  [.ofSegments ["a", "x"], .ofSegments ["a", "y", "deep"], .ofSegments ["a", "y", "list"],
    .ofSegments ["b"], .ofSegments ["c"]]

def nestedEntries : List Entry :=
  [.scalar (.path (.ofSegments ["a"])) (.ofSegments ["a", "y"]),
    .scalar (.path (.ofSegments ["a", "deep"])) (.ofSegments ["c"]),
    .scalar (.path (.ofSegments ["b"])) (.ofSegments ["a", "x"])]

theorem project_identity_nested :
    Cuts cutPaths cutDocument ∧ (copying cutPaths).project cutDocument = cutDocument ∧
    ∃ members paths, project (.fields nestedEntries) cutDocument = .obj members ∧
      members.map Prod.fst = ["a", "b"] ∧ Cuts paths (.obj members) ∧
      (copying paths).project (.obj members) = .obj members := by
  have hcuts : Cuts cutPaths cutDocument := by
    constructor <;> decide
  obtain ⟨members, paths, hresult, -, hkeys, hagain⟩ :=
    project_identity.2 nestedEntries cutDocument (by decide) (by decide)
  have hmembers : members = [("a", .obj [("deep", .obj [("d.e", .null), ("", .bool true)]),
      ("list", .arr [.obj []])]), ("b", .null)] :=
    Json.obj.inj (hresult.symm.trans rfl)
  exact ⟨hcuts, project_identity.1 _ _ rfl (by decide) hcuts, members, paths, hresult,
    by rw [hmembers]; rfl, hkeys, hagain⟩

end Template

end Reshape
