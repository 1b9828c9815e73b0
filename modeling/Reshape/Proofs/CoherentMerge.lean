import Reshape.Proofs.JoinedSequences
import Reshape.Proofs.MergeReading

/-!
Merging three documents.

In general it matters which two of three documents are merged first: a scalar between two mappings
takes the place of the first one, and what is put behind a sequence of mappings depends on whether
it is a sequence of mappings still. Documents are coherent when no two of their parts that meet are
of different sorts. For such documents merging is associative, and what is merged of them stays
coherent with the rest (`merge_assoc_of_coherent`). What a merge has at a key and what it has at a
position are given by one rule (`mergeAll?`), so mappings and sequences of mappings are treated
alike.
-/

namespace Reshape.Json

/-- Whether a document is neither a sequence nor a mapping. -/
def isScalar : Json → Bool
  | .arr _ | .obj _ => false
  | _ => true

/-- Whether a sequence is empty or has an item that is not a mapping. -/
def isPlain (items : List Json) : Bool :=
  items.isEmpty || !onlyMappings items

/-- Two documents are of one sort, and so are their parts wherever they meet. -/
inductive Coherent : Json → Json → Prop
  | scalars {one other : Json} (first : one.isScalar) (second : other.isScalar) :
      Coherent one other
  | mappings {members added : List (String × Json)}
      (each : ∀ key held value, members.lookup key = some held → added.lookup key = some value →
        Coherent held value) : Coherent (.obj members) (.obj added)
  | overlaid {items added : List Json} (first : onlyMappings items) (second : onlyMappings added)
      (each : ∀ (index : Nat) held value, items[index]? = some held → added[index]? = some value →
        Coherent held value) : Coherent (.arr items) (.arr added)
  | plain {items added : List Json} (first : isPlain items) (second : isPlain added) :
      Coherent (.arr items) (.arr added)

/-! ### Sequences that are put behind each other -/

theorem eq_nil_of_isPlain {items : List Json} (h : isPlain items) (hitems : onlyMappings items) :
    items = [] := by
  simpa [isPlain, hitems] using h

theorem join_of_isPlain {base fragment : List Json} (hbase : isPlain base)
    (hfragment : isPlain fragment) : join base fragment = base ++ fragment := by
  by_cases hall : onlyMappings base ∧ onlyMappings fragment
  · rw [eq_nil_of_isPlain hbase hall.1, eq_nil_of_isPlain hfragment hall.2]
    rfl
  · exact join_of_other hall

theorem isPlain_append {base fragment : List Json} (hbase : isPlain base)
    (hfragment : isPlain fragment) : isPlain (base ++ fragment) := by
  by_cases hall : onlyMappings base
  · rw [eq_nil_of_isPlain hbase hall]
    exact hfragment
  · have hother : onlyMappings base = false := by simpa using hall
    rw [isPlain, onlyMappings, List.all_append, ← onlyMappings, hother]
    simp

/-! ### What coherent documents are -/

theorem Coherent.isScalar_left {one other : Json} (h : Coherent one other)
    (hother : other.isScalar) : one.isScalar := by
  cases h with
  | scalars first _ => exact first
  | _ => cases hother

theorem Coherent.exists_members_left {one : Json} {added : List (String × Json)}
    (h : Coherent one (.obj added)) :
    ∃ members, one = .obj members ∧ ∀ key held value, members.lookup key = some held →
      added.lookup key = some value → Coherent held value := by
  cases h with
  | scalars _ second => cases second
  | mappings each => exact ⟨_, rfl, each⟩

theorem Coherent.exists_items_left {one : Json} {added : List Json}
    (h : Coherent one (.arr added)) : ∃ items, one = .arr items := by
  cases h with
  | scalars _ second => cases second
  | overlaid => exact ⟨_, rfl⟩
  | plain => exact ⟨_, rfl⟩

theorem Coherent.getElem? {items added : List Json} (h : Coherent (.arr items) (.arr added))
    (hitems : onlyMappings items) {index : Nat} {held value : Json}
    (hheld : items[index]? = some held) (hvalue : added[index]? = some value) :
    Coherent held value := by
  cases h with
  | scalars first _ => cases first
  | overlaid _ _ each => exact each index held value hheld hvalue
  | plain first _ => simp [eq_nil_of_isPlain first hitems] at hheld

theorem Coherent.isPlain_of_other {items added : List Json} (h : Coherent (.arr items) (.arr added))
    (hother : ¬ (onlyMappings items ∧ onlyMappings added)) : isPlain items ∧ isPlain added := by
  cases h with
  | scalars first _ => cases first
  | overlaid first second _ => exact (hother ⟨first, second⟩).elim
  | plain first second => exact ⟨first, second⟩

/-- Three sequences of which any two are coherent hold nothing but mappings, or they are put one
behind the other. -/
theorem onlyMappings_or_isPlain {first second third : List Json}
    (h12 : Coherent (.arr first) (.arr second)) (h13 : Coherent (.arr first) (.arr third))
    (h23 : Coherent (.arr second) (.arr third)) :
    (onlyMappings first ∧ onlyMappings second ∧ onlyMappings third) ∨
      (isPlain first ∧ isPlain second ∧ isPlain third) := by
  -- A sequence with an item that is no mapping is coherent with the other two in one way only.
  by_cases hthird : onlyMappings third
  · by_cases hboth : onlyMappings first ∧ onlyMappings second
    · exact .inl ⟨hboth.1, hboth.2, hthird⟩
    · obtain ⟨hfirst, hsecond⟩ := h12.isPlain_of_other hboth
      by_cases hall : onlyMappings first
      · exact .inr ⟨hfirst, h23.isPlain_of_other fun h => hboth ⟨hall, h.1⟩⟩
      · exact .inr ⟨hfirst, hsecond, (h13.isPlain_of_other fun h => hall h.1).2⟩
  · exact .inr ⟨(h13.isPlain_of_other fun h => hthird h.2).1,
      h23.isPlain_of_other fun h => hthird h.2⟩

/-! ### Parts of a merge -/

theorem lookup_mergeMembers_eq_mergeAll? {base fragment : List (String × Json)}
    (hnodup : (fragment.map Prod.fst).Nodup) (key : String) :
    (mergeMembers base fragment).lookup key =
      mergeAll? ((base.lookup key).toList ++ (fragment.lookup key).toList) := by
  rw [lookup_mergeMembers hnodup]
  cases fragment.lookup key <;> cases base.lookup key <;> rfl

theorem nodup_keys_mergeMembers {base fragment : List (String × Json)}
    (hbase : (base.map Prod.fst).Nodup) :
    ((mergeMembers base fragment).map Prod.fst).Nodup := by
  induction fragment generalizing base with
  | nil => exact hbase
  | cons member fragment ih =>
      rw [mergeMembers_cons]
      exact ih (nodup_keys_amend member.1 _ hbase)

/-- A part of three documents may be merged in either order if it can where all three have it. -/
theorem mergeAll?_assoc {first second third : Option Json}
    (hassoc : ∀ held value added, first = some held → second = some value → third = some added →
      merge (merge held value) added = merge held (merge value added)) :
    mergeAll? ((mergeAll? (first.toList ++ second.toList)).toList ++ third.toList) =
      mergeAll? (first.toList ++ (mergeAll? (second.toList ++ third.toList)).toList) := by
  match first, second, third with
  | some held, some value, some added =>
      exact congrArg some (hassoc held value added rfl rfl rfl)
  | none, none, none | none, none, some _ | none, some _, none | none, some _, some _
  | some _, none, none | some _, none, some _ | some _, some _, none => rfl

theorem coherent_of_mergeAll? {first second : Option Json} {merged other : Json}
    (hmerged : mergeAll? (first.toList ++ second.toList) = some merged)
    (hfirst : ∀ held, first = some held → Coherent held other)
    (hsecond : ∀ value, second = some value → Coherent value other)
    (hboth : ∀ held value, first = some held → second = some value →
      Coherent (merge held value) other) : Coherent merged other := by
  match first, second with
  | none, none => cases hmerged
  | some held, none =>
      cases hmerged
      exact hfirst held rfl
  | none, some value =>
      cases hmerged
      exact hsecond value rfl
  | some held, some value =>
      cases hmerged
      exact hboth held value rfl rfl

/-- A mapping without a key twice is given by its keys in their order and the value at each. -/
theorem members_ext {members others : List (String × Json)}
    (hnodup : (members.map Prod.fst).Nodup) (hkeys : members.map Prod.fst = others.map Prod.fst)
    (hvalues : ∀ key, members.lookup key = others.lookup key) : members = others := by
  induction members generalizing others with
  | nil => exact (List.map_eq_nil_iff.mp hkeys.symm).symm
  | cons member members ih =>
      obtain ⟨⟨name, other⟩, others, rfl, hname, hrest⟩ := List.map_eq_cons_iff.mp hkeys.symm
      obtain ⟨key, value⟩ := member
      obtain rfl : name = key := hname
      obtain ⟨hnew, hnodup⟩ := List.nodup_cons.mp hnodup
      have hvalue : value = other := by
        simpa using hvalues name
      rw [hvalue, ih hnodup hrest.symm]
      intro key
      by_cases hkey : key = name
      · -- Behind its first place the key does not come again, on either side.
        have hothers : name ∉ others.map Prod.fst := hrest ▸ hnew
        rw [mem_keys_iff, Option.not_isSome_iff_eq_none] at hnew hothers
        rw [hkey, hnew, hothers]
      · simpa [lookup_cons_of_ne hkey] using hvalues key

theorem keys_mergeMembers_assoc {first second third : List (String × Json)}
    (hsecond : (second.map Prod.fst).Nodup) (hthird : (third.map Prod.fst).Nodup) :
    (mergeMembers (mergeMembers first second) third).map Prod.fst =
      (mergeMembers first (mergeMembers second third)).map Prod.fst := by
  rw [keys_mergeMembers hthird, keys_mergeMembers hsecond,
    keys_mergeMembers (nodup_keys_mergeMembers hsecond), keys_mergeMembers hthird,
    List.filter_append, List.append_assoc, List.filter_filter]
  congr 2
  apply List.filter_congr
  intro key _
  grind

theorem mergeMembers_assoc {first second third : List (String × Json)}
    (hfirst : (first.map Prod.fst).Nodup) (hsecond : (second.map Prod.fst).Nodup)
    (hthird : (third.map Prod.fst).Nodup)
    (hassoc : ∀ key held value added, first.lookup key = some held →
      second.lookup key = some value → third.lookup key = some added →
        merge (merge held value) added = merge held (merge value added)) :
    mergeMembers (mergeMembers first second) third =
      mergeMembers first (mergeMembers second third) := by
  apply members_ext (nodup_keys_mergeMembers (nodup_keys_mergeMembers hfirst))
    (keys_mergeMembers_assoc hsecond hthird)
  intro key
  rw [lookup_mergeMembers_eq_mergeAll? hthird, lookup_mergeMembers_eq_mergeAll? hsecond,
    lookup_mergeMembers_eq_mergeAll? (nodup_keys_mergeMembers hsecond),
    lookup_mergeMembers_eq_mergeAll? hthird]
  exact mergeAll?_assoc (hassoc key)

theorem mergeItems_assoc {first second third : List Json}
    (hassoc : ∀ (index : Nat) held value added, first[index]? = some held →
      second[index]? = some value → third[index]? = some added →
        merge (merge held value) added = merge held (merge value added)) :
    mergeItems (mergeItems first second) third = mergeItems first (mergeItems second third) := by
  apply List.ext_getElem?
  intro index
  rw [getElem?_mergeItems, getElem?_mergeItems, getElem?_mergeItems, getElem?_mergeItems]
  exact mergeAll?_assoc (hassoc index)

/-! ### Whole documents -/

theorem merge_assoc {first second third : Json} (hfirst : first.keysDistinct)
    (hsecond : second.keysDistinct) (hthird : third.keysDistinct) (h12 : Coherent first second)
    (h13 : Coherent first third) (h23 : Coherent second third) :
    merge (merge first second) third = merge first (merge second third) := by
  induction third generalizing first second with
  | obj third ih =>
      obtain ⟨second, rfl, each23⟩ := h23.exists_members_left
      obtain ⟨first, rfl, each12⟩ := h12.exists_members_left
      obtain ⟨_, hobj, each13⟩ := h13.exists_members_left
      cases hobj
      apply congrArg Json.obj
      apply mergeMembers_assoc (keysDistinct_obj.mp hfirst).1 (keysDistinct_obj.mp hsecond).1
        (keysDistinct_obj.mp hthird).1
      intro key held value added hheld hvalue hadded
      exact ih (key, added) (mem_of_lookup hadded) (keysDistinct_of_lookup hfirst hheld)
        (keysDistinct_of_lookup hsecond hvalue) (keysDistinct_of_lookup hthird hadded)
        (each12 key held value hheld hvalue) (each13 key held added hheld hadded)
        (each23 key value added hvalue hadded)
  | arr third ih =>
      obtain ⟨second, rfl⟩ := h23.exists_items_left
      obtain ⟨first, rfl⟩ := h12.exists_items_left
      rw [merge_arr, merge_arr, merge_arr, merge_arr]
      apply congrArg Json.arr
      rcases onlyMappings_or_isPlain h12 h13 h23 with ⟨hall1, hall2, hall3⟩ | ⟨h1, h2, h3⟩
      · rw [join_of_onlyMappings hall1 hall2, join_of_onlyMappings hall2 hall3,
          join_of_onlyMappings (onlyMappings_mergeItems hall1 hall2) hall3,
          join_of_onlyMappings hall1 (onlyMappings_mergeItems hall2 hall3)]
        apply mergeItems_assoc
        intro index held value added hheld hvalue hadded
        have haddedMem := List.mem_of_getElem? hadded
        exact ih added haddedMem (keysDistinct_arr.mp hfirst held (List.mem_of_getElem? hheld))
          (keysDistinct_arr.mp hsecond value (List.mem_of_getElem? hvalue))
          (keysDistinct_arr.mp hthird added haddedMem) (h12.getElem? hall1 hheld hvalue)
          (h13.getElem? hall1 hheld hadded) (h23.getElem? hall2 hvalue hadded)
      · rw [join_of_isPlain h1 h2, join_of_isPlain h2 h3, join_of_isPlain (isPlain_append h1 h2) h3,
          join_of_isPlain h1 (isPlain_append h2 h3), List.append_assoc]
  | _ => rfl

theorem merge_of_isScalar {fragment : Json} (hfragment : fragment.isScalar) (base : Json) :
    merge base fragment = fragment := by
  cases fragment with
  | arr items => cases hfragment
  | obj members => cases hfragment
  | _ => rfl

theorem Coherent.of_isScalar {first second third : Json} (hthird : third.isScalar)
    (h23 : Coherent second third) : Coherent (merge first second) third := by
  have hsecond := h23.isScalar_left hthird
  rw [merge_of_isScalar hsecond]
  exact h23

theorem Coherent.merge {first second third : Json} (hsecond : second.keysDistinct)
    (h12 : Coherent first second) (h13 : Coherent first third) (h23 : Coherent second third) :
    Coherent (merge first second) third := by
  induction third generalizing first second with
  | obj third ih =>
      obtain ⟨second, rfl, each23⟩ := h23.exists_members_left
      obtain ⟨first, rfl, each12⟩ := h12.exists_members_left
      obtain ⟨_, hobj, each13⟩ := h13.exists_members_left
      cases hobj
      refine .mappings ?_
      intro key merged added hmerged hadded
      rw [lookup_mergeMembers_eq_mergeAll? (keysDistinct_obj.mp hsecond).1] at hmerged
      apply coherent_of_mergeAll? hmerged
      · exact fun held hheld => each13 key held added hheld hadded
      · exact fun value hvalue => each23 key value added hvalue hadded
      · intro held value hheld hvalue
        exact ih (key, added) (mem_of_lookup hadded) (keysDistinct_of_lookup hsecond hvalue)
          (each12 key held value hheld hvalue) (each13 key held added hheld hadded)
          (each23 key value added hvalue hadded)
  | arr third ih =>
      obtain ⟨second, rfl⟩ := h23.exists_items_left
      obtain ⟨first, rfl⟩ := h12.exists_items_left
      rw [merge_arr]
      rcases onlyMappings_or_isPlain h12 h13 h23 with ⟨hall1, hall2, hall3⟩ | ⟨h1, h2, h3⟩
      · rw [join_of_onlyMappings hall1 hall2]
        refine .overlaid (onlyMappings_mergeItems hall1 hall2) hall3 ?_
        intro index merged added hmerged hadded
        rw [getElem?_mergeItems] at hmerged
        apply coherent_of_mergeAll? hmerged
        · exact fun held hheld => h13.getElem? hall1 hheld hadded
        · exact fun value hvalue => h23.getElem? hall2 hvalue hadded
        · intro held value hheld hvalue
          exact ih added (List.mem_of_getElem? hadded)
            (keysDistinct_arr.mp hsecond value (List.mem_of_getElem? hvalue))
            (h12.getElem? hall1 hheld hvalue) (h13.getElem? hall1 hheld hadded)
            (h23.getElem? hall2 hvalue hadded)
      · rw [join_of_isPlain h1 h2]
        exact .plain (isPlain_append h1 h2) h3
  | _ => exact h23.of_isScalar rfl

/-- Of three documents any two of which are coherent, either two neighbours may be merged first. The
result is the same with the order of its keys, and a merge of the first two stays coherent with the
third. -/
theorem merge_assoc_of_coherent {first second third : Json} (hfirst : first.keysDistinct)
    (hsecond : second.keysDistinct) (hthird : third.keysDistinct) (h12 : Coherent first second)
    (h13 : Coherent first third) (h23 : Coherent second third) :
    merge (merge first second) third = merge first (merge second third) ∧
      Coherent (merge first second) third :=
  ⟨merge_assoc hfirst hsecond hthird h12 h13 h23, h12.merge hsecond h13 h23⟩

theorem coherent_obj_of_mem {members added : List (String × Json)}
    (h : ∀ member ∈ added, ∀ held, members.lookup member.1 = some held → Coherent held member.2) :
    Coherent (.obj members) (.obj added) :=
  .mappings fun _ held _ hheld hvalue => h _ (mem_of_lookup hvalue) held hheld

def ownerNotes : Json :=
  .obj [("a", .obj [("x", .bool true)]), ("list", .arr [.obj [("p", .null)]])]

def listNotes : Json :=
  .obj [("list", .arr [.obj [("q", .null)], .obj [("p", .bool true)]]),
    ("tags", .arr [.str "s", .obj []])]

def tagNotes : Json :=
  .obj [("tags", .arr [.null]), ("a", .obj [("y", .null)]), ("list", .arr [.obj [("p", .str "t")]])]

theorem merge_assoc_of_coherent_notes :
    ownerNotes.keysDistinct ∧ listNotes.keysDistinct ∧ tagNotes.keysDistinct ∧
    Coherent ownerNotes listNotes ∧ Coherent ownerNotes tagNotes ∧ Coherent listNotes tagNotes ∧
    merge ownerNotes (merge listNotes tagNotes) =
      .obj [("a", .obj [("x", .bool true), ("y", .null)]),
        ("list", .arr [.obj [("p", .str "t"), ("q", .null)], .obj [("p", .bool true)]]),
        ("tags", .arr [.str "s", .obj [], .null])] ∧
    Coherent (merge ownerNotes listNotes) tagNotes := by
  have hnames : ∀ {key name : String} {held value : Json}, key ≠ name →
      Coherent (.obj [(key, held)]) (.obj [(name, value)]) := by
    intro key name held value hne
    apply coherent_obj_of_mem
    simp [lookup_cons_of_ne hne.symm]
  have hlists : ∀ {held value : Json} {base fragment : List Json},
      onlyMappings (held :: base) → onlyMappings (value :: fragment) →
        base = [] ∨ fragment = [] → Coherent held value →
          Coherent (.arr (held :: base)) (.arr (value :: fragment)) := by
    intro held value base fragment hbase hfragment hshort h
    refine .overlaid hbase hfragment ?_
    rintro (_ | index) other added hother hadded
    · cases hother
      cases hadded
      exact h
    · rcases hshort with rfl | rfl
      · cases hother
      · cases hadded
  have hscalars : Coherent (.obj [("p", .null)]) (.obj [("p", .str "t")]) := by
    apply coherent_obj_of_mem
    simpa using .scalars rfl rfl
  have h12 : Coherent ownerNotes listNotes := by
    apply coherent_obj_of_mem
    simpa [List.lookup_cons] using hlists rfl rfl (.inl rfl) (hnames (by decide))
  have h13 : Coherent ownerNotes tagNotes := by
    apply coherent_obj_of_mem
    simpa [List.lookup_cons] using ⟨hnames (by decide), hlists rfl rfl (.inl rfl) hscalars⟩
  have h23 : Coherent listNotes tagNotes := by
    apply coherent_obj_of_mem
    simpa [List.lookup_cons] using ⟨.plain rfl rfl, hlists rfl rfl (.inr rfl) (hnames (by decide))⟩
  obtain ⟨hassoc, hmerged⟩ := merge_assoc_of_coherent (by decide) (by decide) (by decide) h12 h13 h23
  refine ⟨by decide, by decide, by decide, h12, h13, h23, ?_, hmerged⟩
  rw [← hassoc]
  rfl

end Reshape.Json
