import Reshape.Proofs.KeyPlacement

/-!
Documents that count.

A mark is an item of a sequence under the empty key, which is no segment of a path. Merging
mappings that hold nothing but marks adds up their marks: no mark is lost, because no two of them
are united, and none stands where a mapping does. So when each entry of a template contributes one
mark, the result tells how many entries contribute.
-/

namespace Reshape.Json

/-- The members hold a number of marks and mappings that lead to them. -/
inductive Marked : List (String × Json) → Nat → Prop
  | empty : Marked [] 0
  | mark {items : List Json} {members : List (String × Json)} {n : Nat}
      (plain : items.all isMapping = false) (rest : Marked members n) :
      Marked (("", .arr items) :: members) (items.length + n)
  | member {key : String} {inner members : List (String × Json)} {m n : Nat}
      (proper : key ≠ "") (inside : Marked inner m) (rest : Marked members n) :
      Marked ((key, .obj inner) :: members) (m + n)

theorem Marked.count_unique {members : List (String × Json)} {m n : Nat} (h : Marked members m)
    (h' : Marked members n) : m = n := by
  induction h generalizing n with
  | empty =>
      cases h'
      rfl
  | mark plain _ ih =>
      cases h' with
      | mark _ hrest => rw [ih hrest]
  | member proper _ _ ihInside ih =>
      cases h' with
      | member _ hinside hrest => rw [ihInside hinside, ih hrest]

theorem Marked.amend_mark {base : List (String × Json)} {items : List Json} {m : Nat}
    (hbase : Marked base m) (plain : items.all isMapping = false) :
    Marked (amend "" (mergeOver (.arr items)) base) (m + items.length) := by
  induction hbase with
  | empty =>
      rw [Nat.add_comm]
      exact .mark plain .empty
  | @mark held members n hheld rest ih =>
      have hmerge : merge (.arr held) (.arr items) = .arr (held ++ items) := by
        simp [merge, hheld]
      have hplain : (held ++ items).all isMapping = false := by
        rw [List.all_append, hheld, Bool.false_and]
      rw [amend, if_pos rfl, mergeOver, Option.elim_some, hmerge, Nat.add_right_comm,
        ← List.length_append]
      exact .mark hplain rest
  | member proper inside _ _ ih =>
      rw [amend, if_neg proper, Nat.add_assoc]
      exact .member proper inside ih

theorem Marked.amend_member {base inner : List (String × Json)} {key : String} {m k : Nat}
    (hbase : Marked base m) (proper : key ≠ "") (hinner : Marked inner k)
    (hmerge : ∀ {held : List (String × Json)} {n : Nat}, Marked held n →
      Marked (mergeMembers held inner) (n + k)) :
    Marked (amend key (mergeOver (.obj inner)) base) (m + k) := by
  induction hbase with
  | empty =>
      rw [Nat.add_comm]
      exact .member proper hinner .empty
  | mark plain _ ih =>
      rw [amend, if_neg proper.symm, Nat.add_assoc]
      exact .mark plain ih
  | @member name held members n n' hname inside rest _ ih =>
      by_cases hkey : name = key
      · rw [amend, if_pos hkey, Nat.add_right_comm]
        exact .member hname (hmerge inside) rest
      · rw [amend, if_neg hkey, Nat.add_assoc]
        exact .member hname inside ih

theorem Marked.mergeMembers {base fragment : List (String × Json)} {m n : Nat}
    (hbase : Marked base m) (hfragment : Marked fragment n) :
    Marked (mergeMembers base fragment) (m + n) := by
  induction hfragment generalizing base m with
  | empty => exact hbase
  | mark plain _ ih =>
      rw [mergeMembers_cons, ← Nat.add_assoc]
      exact ih (hbase.amend_mark plain)
  | member proper inside _ ihInside ih =>
      rw [mergeMembers_cons, ← Nat.add_assoc]
      exact ih (hbase.amend_member proper inside ihInside)

/-! ### Marks in documents -/

def HoldsMarks (value : Json) (n : Nat) : Prop :=
  ∃ members, value = .obj members ∧ Marked members n

theorem HoldsMarks.count_unique {value : Json} {m n : Nat} (h : HoldsMarks value m)
    (h' : HoldsMarks value n) : m = n := by
  obtain ⟨members, rfl, hmembers⟩ := h
  obtain ⟨_, ⟨⟩, hmembers'⟩ := h'
  exact hmembers.count_unique hmembers'

theorem HoldsMarks.merge {base fragment : Json} {m n : Nat} (hbase : HoldsMarks base m)
    (hfragment : HoldsMarks fragment n) : HoldsMarks (merge base fragment) (m + n) := by
  obtain ⟨members, rfl, hmembers⟩ := hbase
  obtain ⟨fragment, rfl, hfragment⟩ := hfragment
  exact ⟨_, rfl, hmembers.mergeMembers hfragment⟩

theorem HoldsMarks.nest {value : Json} {n : Nat} (hvalue : HoldsMarks value n)
    {keys : List String} (hkeys : ∀ key ∈ keys, key ≠ "") : HoldsMarks (nest keys value) n := by
  induction keys with
  | nil => exact hvalue
  | cons key keys ih =>
      obtain ⟨hkey, hkeys⟩ := List.forall_mem_cons.mp hkeys
      obtain ⟨members, hmembers, hmarked⟩ := ih hkeys
      rw [Json.nest, hmembers]
      exact ⟨_, rfl, .member hkey hmarked .empty⟩

theorem holdsMarks_putAll {base : Json} {placed : List (List String × Json)} {n : Nat}
    (hbase : HoldsMarks base n)
    (hplaced : ∀ placement ∈ placed,
      (∀ key ∈ placement.1, key ≠ "") ∧ HoldsMarks placement.2 1) :
    HoldsMarks (putAll base placed) (n + placed.length) := by
  induction placed generalizing base n with
  | nil => exact hbase
  | cons placement placed ih =>
      obtain ⟨⟨hkeys, hvalue⟩, hplaced⟩ := List.forall_mem_cons.mp hplaced
      rw [putAll_cons, List.length_cons, Nat.add_comm placed.length, ← Nat.add_assoc]
      exact ih (hbase.merge (hvalue.nest hkeys)) hplaced

def oneMark : Json :=
  .obj [("", .arr [.null])]

theorem holdsMarks_oneMark : HoldsMarks oneMark 1 :=
  ⟨_, rfl, .mark rfl .empty⟩

/-- Whatever keys are followed on the way to a mark, it is ahead. -/
theorem holdsMarks_of_descend?_nest {read written : List String} {value : Json}
    (hread : ∀ key ∈ read, key ≠ "") (hwritten : ∀ key ∈ written, key ≠ "")
    (h : descend? read (nest written oneMark) = some value) : HoldsMarks value 1 := by
  induction read generalizing written with
  | nil =>
      rw [← Option.some.inj h]
      exact holdsMarks_oneMark.nest hwritten
  | cons key read ih =>
      obtain ⟨hkey, hread⟩ := List.forall_mem_cons.mp hread
      cases written with
      | nil =>
          rw [nest, oneMark, descend?_cons_obj, lookup_cons_of_ne hkey] at h
          cases h
      | cons other written =>
          obtain ⟨-, hwritten⟩ := List.forall_mem_cons.mp hwritten
          rw [nest, descend?_cons_obj] at h
          by_cases hother : key = other
          · rw [hother, List.lookup_cons_self] at h
            exact ih hread hwritten h
          · rw [lookup_cons_of_ne hother] at h
            cases h

end Reshape.Json
