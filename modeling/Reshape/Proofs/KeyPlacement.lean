import Reshape.Json.Merge

/-!
Values put at key paths.

A fragment of a projection is a value under one key path, and a projection merges such fragments
one after the other. Two paths are apart when neither is a prefix of the other: then writing at
one of them cannot be seen by reading at the other (`descend?_merge_nest_of_apart`). A path is
free in a document when following it stops at a mapping that lacks the next key. Values at free
paths that are apart are all found again (`descend?_putAll_of_mem`), and to merge a document made
of them into a base is the same as to put them into the base one by one (`merge_putAll`).
-/

namespace Reshape.Json

/-! ### Merging member by member -/

theorem lookup_cons_of_ne {key name : String} (h : key ≠ name) (value : Json)
    (rest : List (String × Json)) : ((name, value) :: rest).lookup key = rest.lookup key := by
  simp [List.lookup_cons, beq_eq_false_iff_ne.mpr h]

def mergeOver (value : Json) (old : Option Json) : Json :=
  old.elim value fun held => merge held value

theorem mergeMembers_cons (base : List (String × Json)) (key : String) (value : Json)
    (rest : List (String × Json)) :
    mergeMembers base ((key, value) :: rest) =
      mergeMembers (amend key (mergeOver value) base) rest := by
  rfl

theorem exists_members_of_isMapping {value : Json} (h : value.isMapping) :
    ∃ members, value = .obj members := by
  cases value with
  | obj members => exact ⟨members, rfl⟩
  | _ => cases h

theorem merge_of_not_mapping {base : Json} (hbase : base.isMapping = false)
    (fragment : List (String × Json)) : merge base (.obj fragment) = .obj fragment := by
  cases base <;> simp_all [merge, isMapping]

theorem merge_nest_cons (members : List (String × Json)) (key : String) (keys : List String)
    (value : Json) :
    merge (.obj members) (nest (key :: keys) value) =
      .obj (amend key (mergeOver (nest keys value)) members) := by
  rfl

theorem merge_empty_nest {keys : List String} (hkeys : keys ≠ []) (value : Json) :
    merge (.obj []) (nest keys value) = nest keys value := by
  obtain ⟨key, keys, rfl⟩ := List.exists_cons_of_ne_nil hkeys
  rfl

theorem isMapping_nest {keys : List String} (hkeys : keys ≠ []) (value : Json) :
    (nest keys value).isMapping := by
  obtain ⟨key, rest, rfl⟩ := List.exists_cons_of_ne_nil hkeys
  rfl

theorem isMapping_merge (base fragment : Json) :
    (merge base fragment).isMapping = fragment.isMapping := by
  cases fragment with
  | obj fragment => cases base <;> rfl
  | arr fragment =>
      cases base with
      | arr items =>
          rw [merge]
          split <;> rfl
      | _ => rfl
  | _ => rfl

theorem nodup_keys_amend (key : String) (change : Option Json → Json)
    {members : List (String × Json)} (hnodup : (members.map Prod.fst).Nodup) :
    ((amend key change members).map Prod.fst).Nodup := by
  rw [keys_amend]
  split
  · simpa using hnodup
  · rename_i habsent
    exact List.nodup_append.mpr ⟨hnodup, by simp, by
      intro held hheld added hadded heq
      rw [List.mem_singleton.mp hadded] at heq
      exact habsent (heq ▸ hheld)⟩

theorem not_mem_of_nodup_append_cons {α : Type} {front rest : List α} {item : α}
    (h : (front ++ item :: rest).Nodup) : item ∉ front := by
  intro hmem
  exact (List.nodup_append.mp h).2.2 item hmem item (by simp) rfl

theorem amend_append_of_not_mem {key : String} (change : Option Json → Json)
    {front : List (String × Json)} (h : key ∉ front.map Prod.fst) (members : List (String × Json)) :
    amend key change (front ++ members) = front ++ amend key change members := by
  induction front with
  | nil => rfl
  | cons member front ih =>
      obtain ⟨name, value⟩ := member
      have hname : name ≠ key := fun heq => h (by simp [heq])
      rw [List.cons_append, amend, if_neg hname, ih fun hmem => h (by simp [hmem])]
      rfl

theorem amend_of_not_mem {key : String} (change : Option Json → Json)
    {members : List (String × Json)} (h : key ∉ members.map Prod.fst) :
    amend key change members = members ++ [(key, change none)] := by
  simpa [amend] using amend_append_of_not_mem change h []

theorem amend_amend_same (key : String) (first second : Option Json → Json)
    (members : List (String × Json)) :
    amend key second (amend key first members) =
      amend key (fun old => second (some (first old))) members := by
  induction members with
  | nil => simp [amend]
  | cons member rest ih =>
      obtain ⟨name, value⟩ := member
      by_cases hname : name = key
      · simp [amend, hname]
      · simp [amend, hname, ih]

theorem amend_comm_of_mem {key other : String} (hne : other ≠ key)
    (change changeOther : Option Json → Json) {members : List (String × Json)}
    (hkey : key ∈ members.map Prod.fst) :
    amend key change (amend other changeOther members) =
      amend other changeOther (amend key change members) := by
  induction members with
  | nil => simp at hkey
  | cons member rest ih =>
      obtain ⟨name, value⟩ := member
      by_cases hname : name = key
      · have hother : name ≠ other := fun h => hne (h.symm.trans hname)
        simp [amend, hname, hne.symm]
      · have hrest : key ∈ rest.map Prod.fst := by
          simpa [Ne.symm hname] using hkey
        by_cases hother : name = other
        · simp [amend, hother, hne]
        · simp [amend, hname, hother, ih hrest]

theorem amend_mergeMembers_of_not_mem {key : String} (change : Option Json → Json)
    {base fragment : List (String × Json)} (hkey : key ∈ base.map Prod.fst)
    (habsent : key ∉ fragment.map Prod.fst) :
    amend key change (mergeMembers base fragment) =
      mergeMembers (amend key change base) fragment := by
  induction fragment generalizing base with
  | nil => rfl
  | cons member fragment ih =>
      obtain ⟨name, value⟩ := member
      have hne : name ≠ key := fun h => habsent (by simp [h])
      have hrest : key ∉ fragment.map Prod.fst := fun h => habsent (by simp [h])
      have hheld : key ∈ (amend name (mergeOver value) base).map Prod.fst := by
        rw [keys_amend]
        exact List.mem_append_left _ hkey
      rw [mergeMembers_cons, mergeMembers_cons, ih hheld hrest, amend_comm_of_mem hne _ _ hkey]

/-- Merging a fragment and then a value at a key is merging the fragment with that value in it,
as long as the two ways agree on what the key holds in the fragment. -/
theorem mergeMembers_amend {key : String} {value : Json} {base fragment : List (String × Json)}
    (hnodup : (fragment.map Prod.fst).Nodup)
    (hassoc : ∀ held, fragment.lookup key = some held → ∀ first,
      merge (merge first held) value = merge first (merge held value)) :
    amend key (mergeOver value) (mergeMembers base fragment) =
      mergeMembers base (amend key (mergeOver value) fragment) := by
  induction fragment generalizing base with
  | nil => rfl
  | cons member fragment ih =>
      obtain ⟨name, held⟩ := member
      obtain ⟨hname, hrest⟩ := List.nodup_cons.mp hnodup
      by_cases hkey : name = key
      · subst hkey
        -- The key is in place by now, so a change at it may be made before the rest is merged.
        have hfound : name ∈ (amend name (mergeOver held) base).map Prod.fst := by
          rw [keys_amend]
          split <;> simp_all
        have htwice : (fun old => mergeOver value (some (mergeOver held old))) =
            mergeOver (merge held value) := by
          funext old
          cases old with
          | none => rfl
          | some first => exact hassoc held (by simp) first
        rw [mergeMembers_cons, amend_mergeMembers_of_not_mem _ hfound hname, amend_amend_same,
          htwice]
        simp [amend, mergeMembers_cons, mergeOver]
      · have hlookup : ∀ held', fragment.lookup key = some held' → ∀ first,
            merge (merge first held') value = merge first (merge held' value) := by
          intro held' hheld' first
          refine hassoc held' ?_ first
          rwa [lookup_cons_of_ne (Ne.symm hkey)]
        rw [mergeMembers_cons, ih hrest hlookup]
        simp [amend, hkey, mergeMembers_cons]

/-! ### Key paths that are apart -/

def Apart (left right : List String) : Prop :=
  ¬ left <+: right ∧ ¬ right <+: left

instance (left right : List String) : Decidable (Apart left right) :=
  inferInstanceAs (Decidable (_ ∧ _))

theorem Apart.symm {left right : List String} (h : Apart left right) : Apart right left :=
  ⟨h.2, h.1⟩

theorem not_apart_nil_left (keys : List String) : ¬ Apart [] keys := by
  simp [Apart]

theorem not_apart_nil_right (keys : List String) : ¬ Apart keys [] := by
  simp [Apart]

theorem apart_cons_cons {key other : String} {left right : List String} :
    Apart (key :: left) (other :: right) ↔ (key = other → Apart left right) := by
  by_cases h : key = other
  · simp [Apart, h]
  · simp [Apart, List.cons_prefix_cons, h, Ne.symm h]

theorem descend?_cons_obj (key : String) (keys : List String) (members : List (String × Json)) :
    descend? (key :: keys) (.obj members) = (members.lookup key).bind (descend? keys) := by
  rfl

theorem descend?_cons_of_not_mapping {value : Json} (hvalue : value.isMapping = false)
    (key : String) (keys : List String) : descend? (key :: keys) value = none := by
  cases value <;> simp_all [descend?, field?, isMapping]

theorem descend?_append (first second : List String) (source : Json) :
    descend? (first ++ second) source = (descend? first source).bind (descend? second) := by
  induction first generalizing source with
  | nil => rfl
  | cons key first ih =>
      rw [List.cons_append, descend?, descend?]
      cases source.field? key with
      | none => rfl
      | some inner => exact ih inner

theorem exists_mapping_of_descend?_append {keys more : List String} {source value : Json}
    (hmore : more ≠ []) (h : descend? (keys ++ more) source = some value) :
    ∃ members, descend? keys source = some (.obj members) := by
  obtain ⟨key, rest, rfl⟩ := List.exists_cons_of_ne_nil hmore
  rw [descend?_append] at h
  obtain ⟨inner, hinner, h⟩ := Option.bind_eq_some_iff.mp h
  cases inner with
  | obj members => exact ⟨members, hinner⟩
  | _ => cases h

theorem descend?_nest_of_apart {read written : List String} (h : Apart read written)
    (value : Json) : descend? read (nest written value) = none := by
  induction written generalizing read with
  | nil => exact (not_apart_nil_right read h).elim
  | cons key written ih =>
      cases read with
      | nil => exact (not_apart_nil_left _ h).elim
      | cons other read =>
          rw [nest, descend?_cons_obj]
          by_cases hkey : other = key
          · simp [hkey, ih (apart_cons_cons.mp h hkey)]
          · simp [lookup_cons_of_ne hkey]

theorem descend?_merge_nest_of_apart {read written : List String} (h : Apart read written)
    (base value : Json) :
    descend? read (merge base (nest written value)) = descend? read base := by
  induction written generalizing read base with
  | nil => exact (not_apart_nil_right read h).elim
  | cons key written ih =>
      cases read with
      | nil => exact (not_apart_nil_left _ h).elim
      | cons other read =>
          cases hbase : base.isMapping with
          | false =>
              rw [descend?_cons_of_not_mapping hbase, nest, merge_of_not_mapping hbase]
              exact descend?_nest_of_apart h value
          | true =>
              obtain ⟨members, rfl⟩ := exists_members_of_isMapping hbase
              rw [merge_nest_cons, descend?_cons_obj, descend?_cons_obj, lookup_amend]
              by_cases hkey : other = key
              · have hrest := apart_cons_cons.mp h hkey
                subst hkey
                cases members.lookup other with
                | none => simp [mergeOver, descend?_nest_of_apart hrest]
                | some held => simp [mergeOver, ih hrest]
              · simp [hkey]

/-! ### Free key paths -/

/-- There is room for a value at a key path: following the path stops at a mapping that lacks the
next key, and no mapping on the way has a key twice. -/
def Free : List String → Json → Prop
  | key :: keys, .obj members =>
      (members.map Prod.fst).Nodup ∧
        ∀ value, members.lookup key = some value → Free keys value
  | _, _ => False

theorem free_empty {keys : List String} (h : keys ≠ []) : Free keys (.obj []) := by
  cases keys with
  | nil => exact (h rfl).elim
  | cons key keys => simp [Free]

theorem free_nest_of_apart {keys written : List String} (h : Apart keys written)
    (value : Json) : Free keys (nest written value) := by
  induction written generalizing keys with
  | nil => exact (not_apart_nil_right keys h).elim
  | cons key written ih =>
      cases keys with
      | nil => exact (not_apart_nil_left _ h).elim
      | cons other keys =>
          refine ⟨by simp, ?_⟩
          intro held hheld
          by_cases hkey : other = key
          · have : nest written value = held := by simpa [hkey] using hheld
            rw [← this]
            exact ih (apart_cons_cons.mp h hkey)
          · simp [lookup_cons_of_ne hkey] at hheld

theorem Free.merge_nest {keys written : List String} {base : Json} (hfree : Free keys base)
    (hapart : Apart keys written) (value : Json) : Free keys (merge base (nest written value)) := by
  induction keys generalizing written base with
  | nil => exact (not_apart_nil_left _ hapart).elim
  | cons key keys ih =>
      cases written with
      | nil => exact (not_apart_nil_right _ hapart).elim
      | cons other written =>
          cases base with
          | obj members =>
              obtain ⟨hnodup, hbelow⟩ := hfree
              refine ⟨nodup_keys_amend other _ hnodup, ?_⟩
              intro held hheld
              change (amend other _ members).lookup key = some held at hheld
              rw [lookup_amend] at hheld
              by_cases hkey : key = other
              · have hrest := apart_cons_cons.mp hapart hkey
                subst hkey
                simp only [if_true, Option.some.injEq] at hheld
                subst hheld
                cases hlookup : members.lookup key with
                | none => exact free_nest_of_apart hrest value
                | some below => exact ih (hbelow below hlookup) hrest
              · rw [if_neg hkey] at hheld
                exact hbelow held hheld
          | _ => exact hfree.elim

theorem Free.descend?_merge_nest {keys : List String} {base : Json} (hfree : Free keys base)
    (value : Json) : descend? keys (merge base (nest keys value)) = some value := by
  induction keys generalizing base with
  | nil => exact hfree.elim
  | cons key keys ih =>
      cases base with
      | obj members =>
          obtain ⟨-, hbelow⟩ := hfree
          rw [merge_nest_cons, descend?_cons_obj, lookup_amend, if_pos rfl, Option.bind_some]
          cases hlookup : members.lookup key with
          | none => exact descend?_nest keys value
          | some held => exact ih (hbelow held hlookup)
      | _ => exact hfree.elim

/-- Putting a value at a path that is free in a fragment may wait until the fragment is merged. -/
theorem Free.merge_merge_nest {keys : List String} {fragment : Json} (hfree : Free keys fragment)
    (base value : Json) :
    merge (merge base fragment) (nest keys value) =
      merge base (merge fragment (nest keys value)) := by
  induction keys generalizing base fragment with
  | nil => exact hfree.elim
  | cons key keys ih =>
      cases fragment with
      | obj members =>
          obtain ⟨hnodup, hbelow⟩ := hfree
          cases hbase : base.isMapping with
          | false => rw [merge_of_not_mapping hbase, merge_nest_cons, merge_of_not_mapping hbase]
          | true =>
              obtain ⟨held, rfl⟩ := exists_members_of_isMapping hbase
              rw [merge_nest_cons members, merge, merge, merge_nest_cons]
              exact congrArg Json.obj
                (mergeMembers_amend hnodup fun below hheld first =>
                  ih (hbelow below hheld) first)
      | _ => exact hfree.elim

/-! ### Putting many values -/

def putAll (base : Json) (placed : List (List String × Json)) : Json :=
  placed.foldl (fun held placement => merge held (nest placement.1 placement.2)) base

theorem putAll_cons (base : Json) (placement : List String × Json)
    (placed : List (List String × Json)) :
    putAll base (placement :: placed) =
      putAll (merge base (nest placement.1 placement.2)) placed := by
  rfl

theorem putAll_append (base : Json) (first second : List (List String × Json)) :
    putAll base (first ++ second) = putAll (putAll base first) second := by
  exact List.foldl_append

theorem descend?_putAll_of_apart {keys : List String} {placed : List (List String × Json)}
    (hapart : ∀ placement ∈ placed, Apart keys placement.1) (base : Json) :
    descend? keys (putAll base placed) = descend? keys base := by
  induction placed generalizing base with
  | nil => rfl
  | cons placement placed ih =>
      rw [putAll_cons, ih fun other hother => hapart other (List.mem_cons_of_mem _ hother)]
      exact descend?_merge_nest_of_apart (hapart placement (by simp)) base placement.2

/-- There is room in a document for values at paths that are apart. -/
structure Fits (placed : List (List String × Json)) (base : Json) : Prop where
  apart : placed.Pairwise fun one other => Apart one.1 other.1
  free : ∀ placement ∈ placed, Free placement.1 base

theorem Fits.rest {placement : List String × Json} {placed : List (List String × Json)}
    {base : Json} (h : Fits (placement :: placed) base) :
    Fits placed (merge base (nest placement.1 placement.2)) := by
  obtain ⟨hfirst, hrest⟩ := List.pairwise_cons.mp h.apart
  refine ⟨hrest, ?_⟩
  intro other hother
  exact (h.free other (List.mem_cons_of_mem _ hother)).merge_nest (hfirst other hother).symm
    placement.2

theorem descend?_putAll_of_mem {placed : List (List String × Json)} {base : Json}
    (hfits : Fits placed base) {placement : List String × Json} (hplaced : placement ∈ placed) :
    descend? placement.1 (putAll base placed) = some placement.2 := by
  induction placed generalizing base with
  | nil => simp at hplaced
  | cons first placed ih =>
      rw [putAll_cons]
      rcases List.mem_cons.mp hplaced with rfl | hmem
      · rw [descend?_putAll_of_apart (List.pairwise_cons.mp hfits.apart).1]
        exact (hfits.free placement hplaced).descend?_merge_nest placement.2
      · exact ih hfits.rest hmem

/-- To merge a document with values put into it is to put them in after merging, when there is
room for them in the document. -/
theorem merge_putAll {placed : List (List String × Json)} {fragment : Json}
    (hfits : Fits placed fragment) (base : Json) :
    merge base (putAll fragment placed) = putAll (merge base fragment) placed := by
  induction placed generalizing fragment with
  | nil => rfl
  | cons first placed ih =>
      rw [putAll_cons, putAll_cons, ih hfits.rest, (hfits.free first (by simp)).merge_merge_nest]

end Reshape.Json
