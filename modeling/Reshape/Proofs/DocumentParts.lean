import Reshape.Proofs.KeyPlacement

/-!
The parts of documents.

`Json.induction` goes from the parts of a document to the whole. A property is decided by parts
(`ByParts`) when a sequence has it just if its items do, and a mapping just if the values of its
members do and its keys are of some sort. What documents are merged and wrapped has such a property
when they have it. One is that all scalars in a document are of some sort and all its keys of
another (`MadeOf`); that no mapping has a key twice is a second.
-/

namespace Reshape.Json

/-- Induction over documents: a property of all items holds of their sequence, and one of the
values of all members of their mapping. -/
@[elab_as_elim, induction_eliminator]
theorem induction {motive : Json → Prop} (null : motive .null)
    (bool : ∀ value, motive (.bool value)) (num : ∀ value, motive (.num value))
    (str : ∀ text, motive (.str text))
    (arr : ∀ items, (∀ item ∈ items, motive item) → motive (.arr items))
    (obj : ∀ members, (∀ member ∈ members, motive member.2) → motive (.obj members)) :
    ∀ value, motive value
  | .null => null
  | .bool value => bool value
  | .num value => num value
  | .str text => str text
  | .arr items => arr items fun item _ => induction null bool num str arr obj item
  | .obj members => obj members fun member _ => induction null bool num str arr obj member.2
termination_by value => sizeOf value
decreasing_by
  · rename_i hitem
    have := List.sizeOf_lt_of_mem hitem
    simp only [Json.arr.sizeOf_spec]
    omega
  · rename_i hmember
    have := List.sizeOf_lt_of_mem hmember
    obtain ⟨key, value⟩ := member
    simp only [Prod.mk.sizeOf_spec] at this
    simp only [Json.obj.sizeOf_spec]
    omega

theorem map_eq_map_of_getElem {α : Type} {change : Json → α} {first second : List Json}
    (hlength : first.length = second.length)
    (heach : ∀ index (hfirst : index < first.length) (hsecond : index < second.length),
      change first[index] = change second[index]) : first.map change = second.map change := by
  apply List.ext_getElem
  · simpa using hlength
  · intro index hfirst hsecond
    rw [List.getElem_map, List.getElem_map]
    exact heach index (by simpa using hfirst) (by simpa using hsecond)

theorem mem_of_lookup {key : String} {value : Json} {members : List (String × Json)}
    (h : members.lookup key = some value) : (key, value) ∈ members := by
  obtain ⟨before, after, rfl, -⟩ := List.lookup_eq_some_iff.mp h
  simp

theorem lookup_eq_some_iff_mem {members : List (String × Json)}
    (hnodup : (members.map Prod.fst).Nodup) {key : String} {value : Json} :
    members.lookup key = some value ↔ (key, value) ∈ members := by
  constructor
  · exact mem_of_lookup
  · intro hmember
    obtain ⟨before, after, rfl⟩ := List.append_of_mem hmember
    rw [List.map_append, List.map_cons] at hnodup
    refine List.lookup_eq_some_iff.mpr ⟨before, after, rfl, ?_⟩
    intro held hheld
    have hne := (List.nodup_append.mp hnodup).2.2 held.1 (List.mem_map_of_mem hheld) key (by simp)
    simpa using hne.symm

theorem forall_mem_amend {holds : Json → Prop} {key : String} {change : Option Json → Json}
    {members : List (String × Json)} (hchange : holds (change (members.lookup key)))
    (hvalues : ∀ member ∈ members, holds member.2) :
    ∀ member ∈ amend key change members, holds member.2 := by
  induction members with
  | nil => simpa [amend] using hchange
  | cons member members ih =>
      obtain ⟨name, value⟩ := member
      obtain ⟨hvalue, hvalues⟩ := List.forall_mem_cons.mp hvalues
      by_cases hname : name = key
      · subst hname
        rw [amend, if_pos rfl]
        exact List.forall_mem_cons.mpr ⟨by simpa using hchange, hvalues⟩
      · rw [lookup_cons_of_ne (Ne.symm hname)] at hchange
        rw [amend, if_neg hname]
        exact List.forall_mem_cons.mpr ⟨hvalue, ih hchange hvalues⟩

/-! ### Properties that are decided by parts -/

/-- A property of documents that their parts decide. The keys of one mapping may be added to those
of another. -/
structure ByParts (holds : Json → Prop) (keysHold : List String → Prop) : Prop where
  arr : ∀ {items : List Json}, holds (.arr items) ↔ ∀ item ∈ items, holds item
  obj : ∀ {members : List (String × Json)}, holds (.obj members) ↔
    keysHold (members.map Prod.fst) ∧ ∀ member ∈ members, holds member.2
  none : keysHold []
  add : ∀ {held added : List String} {key : String}, keysHold held → keysHold added →
    key ∈ added → key ∉ held → keysHold (held ++ [key])

namespace ByParts

variable {holds : Json → Prop} {keysHold : List String → Prop}

theorem empty (h : ByParts holds keysHold) : holds (.obj []) :=
  h.obj.mpr ⟨h.none, by simp⟩

theorem descend? (h : ByParts holds keysHold) {keys : List String} {source value : Json}
    (hsource : holds source) (hfound : descend? keys source = some value) : holds value := by
  induction keys generalizing source with
  | nil =>
      rw [← Option.some.inj hfound]
      exact hsource
  | cons key keys ih =>
      obtain ⟨inner, hinner, hvalue⟩ := Option.bind_eq_some_iff.mp hfound
      cases source with
      | obj members => exact ih ((h.obj.mp hsource).2 _ (mem_of_lookup hinner)) hvalue
      | _ => simp [field?] at hinner

theorem nest (h : ByParts holds keysHold) {keys : List String}
    (hkeys : ∀ key ∈ keys, keysHold [key]) {value : Json} (hvalue : holds value) :
    holds (nest keys value) := by
  induction keys with
  | nil => exact hvalue
  | cons key keys ih =>
      obtain ⟨hkey, hkeys⟩ := List.forall_mem_cons.mp hkeys
      exact h.obj.mpr ⟨hkey, by simpa using ih hkeys⟩

theorem amend (h : ByParts holds keysHold) {members : List (String × Json)} {added : List String}
    {key : String} {change : Option Json → Json} (hmembers : holds (.obj members))
    (hadded : keysHold added) (hkey : key ∈ added)
    (hchange : holds (change (members.lookup key))) :
    holds (.obj (amend key change members)) := by
  obtain ⟨hkeys, hvalues⟩ := h.obj.mp hmembers
  refine h.obj.mpr ⟨?_, forall_mem_amend hchange hvalues⟩
  rw [keys_amend]
  split
  · rwa [List.append_nil]
  · rename_i habsent
    exact h.add hkeys hadded hkey habsent

theorem mergeMembers (h : ByParts holds keysHold) {base fragment : List (String × Json)}
    {added : List String} (hbase : holds (.obj base)) (hadded : keysHold added)
    (hkeys : ∀ member ∈ fragment, member.1 ∈ added)
    (hmerge : ∀ member ∈ fragment, ∀ held, holds held → holds (merge held member.2))
    (hfragment : ∀ member ∈ fragment, holds member.2) :
    holds (.obj (mergeMembers base fragment)) := by
  induction fragment generalizing base with
  | nil => exact hbase
  | cons member fragment ih =>
      obtain ⟨key, value⟩ := member
      obtain ⟨hkey, hkeys⟩ := List.forall_mem_cons.mp hkeys
      obtain ⟨hmergeValue, hmerge⟩ := List.forall_mem_cons.mp hmerge
      obtain ⟨hvalue, hfragment⟩ := List.forall_mem_cons.mp hfragment
      rw [mergeMembers_cons]
      refine ih (h.amend hbase hadded hkey ?_) hkeys hmerge hfragment
      cases hheld : base.lookup key with
      | none => exact hvalue
      | some held => exact hmergeValue held ((h.obj.mp hbase).2 _ (mem_of_lookup hheld))

theorem mergeItems {base fragment : List Json} (hbase : ∀ item ∈ base, holds item)
    (hmerge : ∀ item ∈ fragment, ∀ held, holds held → holds (merge held item))
    (hfragment : ∀ item ∈ fragment, holds item) :
    ∀ item ∈ mergeItems base fragment, holds item := by
  induction fragment generalizing base with
  | nil => simpa [Json.mergeItems] using hbase
  | cons value fragment ih =>
      cases base with
      | nil => simpa [Json.mergeItems] using hfragment
      | cons held base =>
          obtain ⟨hheld, hbase⟩ := List.forall_mem_cons.mp hbase
          obtain ⟨hmergeValue, hmerge⟩ := List.forall_mem_cons.mp hmerge
          obtain ⟨-, hfragment⟩ := List.forall_mem_cons.mp hfragment
          rw [Json.mergeItems]
          exact List.forall_mem_cons.mpr ⟨hmergeValue held hheld, ih hbase hmerge hfragment⟩

/-- What two documents have by their parts, their merge has as well. -/
theorem merge (h : ByParts holds keysHold) {base fragment : Json} (hbase : holds base)
    (hfragment : holds fragment) : holds (merge base fragment) := by
  induction fragment generalizing base with
  | arr fragment ih =>
      cases base with
      | arr items =>
          have hitems := h.arr.mp hbase
          have hadded := h.arr.mp hfragment
          rw [Json.merge]
          split
          · exact h.arr.mpr (mergeItems hitems
              (fun item hitem held hheld => ih item hitem hheld (hadded item hitem)) hadded)
          · exact h.arr.mpr (List.forall_mem_append.mpr ⟨hitems, hadded⟩)
      | _ => exact hfragment
  | obj fragment ih =>
      cases base with
      | obj members =>
          obtain ⟨hkeys, hvalues⟩ := h.obj.mp hfragment
          exact h.mergeMembers hbase hkeys (fun member => List.mem_map_of_mem)
            (fun member hmember held hheld =>
              ih member hmember hheld (hvalues member hmember)) hvalues
      | _ => exact hfragment
  | _ => exact hfragment

theorem putAll (h : ByParts holds keysHold) {base : Json} {placed : List (List String × Json)}
    (hbase : holds base) (hkeys : ∀ placement ∈ placed, ∀ key ∈ placement.1, keysHold [key])
    (hvalues : ∀ placement ∈ placed, holds placement.2) : holds (putAll base placed) := by
  induction placed generalizing base with
  | nil => exact hbase
  | cons placement placed ih =>
      obtain ⟨hfirst, hkeys⟩ := List.forall_mem_cons.mp hkeys
      obtain ⟨hvalue, hvalues⟩ := List.forall_mem_cons.mp hvalues
      rw [putAll_cons]
      exact ih (h.merge hbase (h.nest hfirst hvalue)) hkeys hvalues

end ByParts

/-! ### Scalars and keys -/

/-- A part stands somewhere in a document, or is the document. -/
inductive Occurs (part : Json) : Json → Prop
  | whole : Occurs part part
  | item {items : List Json} {item : Json} (mem : item ∈ items) (inside : Occurs part item) :
      Occurs part (.arr items)
  | member {members : List (String × Json)} {member : String × Json} (mem : member ∈ members)
      (inside : Occurs part member.2) : Occurs part (.obj members)

theorem Occurs.trans {part middle value : Json} (hpart : Occurs part middle)
    (hmiddle : Occurs middle value) : Occurs part value := by
  induction hmiddle with
  | whole => exact hpart
  | item mem _ ih => exact .item mem ih
  | member mem _ ih => exact .member mem ih

/-- A key stands in some mapping of a document. -/
def HasKey (key : String) (value : Json) : Prop :=
  ∃ members, Occurs (.obj members) value ∧ key ∈ members.map Prod.fst

/-- The scalars and the keys of a document are all of some sort. -/
structure MadeOf (scalars : Json → Prop) (keys : String → Prop) (value : Json) : Prop where
  scalar : ∀ part, part.kind ≠ .sequence → part.kind ≠ .mapping → Occurs part value → scalars part
  key : ∀ key, HasKey key value → keys key

section

variable {scalars : Json → Prop} {keys : String → Prop}

theorem MadeOf.of_occurs {part value : Json} (h : MadeOf scalars keys value)
    (hpart : Occurs part value) : MadeOf scalars keys part where
  scalar inner hsequence hmapping hinner := h.scalar inner hsequence hmapping (hinner.trans hpart)
  key key := fun ⟨members, hmembers, hkey⟩ => h.key key ⟨members, hmembers.trans hpart, hkey⟩

theorem madeOf_arr {items : List Json} :
    MadeOf scalars keys (.arr items) ↔ ∀ item ∈ items, MadeOf scalars keys item := by
  constructor
  · intro h item hitem
    exact h.of_occurs (.item hitem .whole)
  · intro h
    constructor
    case scalar =>
      rintro part hsequence hmapping (_ | ⟨hitem, hpart⟩)
      · exact (hsequence rfl).elim
      · exact (h _ hitem).scalar part hsequence hmapping hpart
    case key =>
      rintro key ⟨members, _ | ⟨hitem, hmembers⟩, hkey⟩
      exact (h _ hitem).key key ⟨members, hmembers, hkey⟩

theorem madeOf_obj {members : List (String × Json)} :
    MadeOf scalars keys (.obj members) ↔
      (∀ key ∈ members.map Prod.fst, keys key) ∧
        ∀ member ∈ members, MadeOf scalars keys member.2 := by
  constructor
  · intro h
    constructor
    · intro key hkey
      exact h.key key ⟨members, .whole, hkey⟩
    · intro member hmember
      exact h.of_occurs (.member hmember .whole)
  · rintro ⟨hkeys, hvalues⟩
    constructor
    case scalar =>
      rintro part hsequence hmapping (_ | _ | ⟨hmember, hpart⟩)
      · exact (hmapping rfl).elim
      · exact (hvalues _ hmember).scalar part hsequence hmapping hpart
    case key =>
      rintro key ⟨held, _ | _ | ⟨hmember, hheld⟩, hkey⟩
      · exact hkeys key hkey
      · exact (hvalues _ hmember).key key ⟨held, hheld, hkey⟩

theorem madeOf_scalar {value : Json} (hsequence : value.kind ≠ .sequence)
    (hmapping : value.kind ≠ .mapping) : MadeOf scalars keys value ↔ scalars value := by
  constructor
  · intro h
    exact h.scalar value hsequence hmapping .whole
  · intro h
    constructor
    case scalar =>
      rintro part - - (_ | _ | _)
      · exact h
      · exact (hsequence rfl).elim
      · exact (hmapping rfl).elim
    case key =>
      rintro key ⟨members, _ | _ | _, -⟩
      · exact (hmapping rfl).elim
      · exact (hsequence rfl).elim
      · exact (hmapping rfl).elim

theorem madeOf_str {text : String} : MadeOf scalars keys (.str text) ↔ scalars (.str text) :=
  madeOf_scalar (by simp [kind]) (by simp [kind])

theorem byParts_madeOf :
    ByParts (MadeOf scalars keys) (fun held => ∀ key ∈ held, keys key) where
  arr := madeOf_arr
  obj := madeOf_obj
  none := by simp
  add hheld hadded hkey _ :=
    List.forall_mem_append.mpr ⟨hheld, by simpa using hadded _ hkey⟩

end

end Reshape.Json
