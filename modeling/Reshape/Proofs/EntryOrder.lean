import Mathlib.Data.List.Perm.Basic
import Reshape.Proofs.DistinctKeys
import Reshape.Proofs.EntryPlacement

/-!
Entries in another order.

Where the targets of entries are apart, the order of the entries is the order of the keys in the
result and nothing else. Two values that are put at free paths may change places, up to the order of
members (`reordered_merge_nest_comm`), and what is put after them keeps that difference and adds no
other one (`Reordered.putAll`). So any permutation of the entries reorders the result
(`reordered_project_of_perm`).
-/

namespace Reshape.Json

/-- Two documents are equal but for the order of the members in their mappings, at any depth. -/
inductive Reordered : Json → Json → Prop
  | null : Reordered .null .null
  | bool (value : Bool) : Reordered (.bool value) (.bool value)
  | num (value : Number) : Reordered (.num value) (.num value)
  | str (text : String) : Reordered (.str text) (.str text)
  | arr {items others : List Json} (each : List.Forall₂ Reordered items others) :
      Reordered (.arr items) (.arr others)
  | obj {members moved others : List (String × Json)} (order : members.Perm moved)
      (keys : moved.map Prod.fst = others.map Prod.fst)
      (values : List.Forall₂ Reordered (moved.map Prod.snd) (others.map Prod.snd)) :
      Reordered (.obj members) (.obj others)

def ReorderedMember (member other : String × Json) : Prop :=
  member.1 = other.1 ∧ Reordered member.2 other.2

theorem forall₂_reorderedMember_iff {members others : List (String × Json)} :
    List.Forall₂ ReorderedMember members others ↔
      members.map Prod.fst = others.map Prod.fst ∧
        List.Forall₂ Reordered (members.map Prod.snd) (others.map Prod.snd) := by
  constructor
  · intro h
    induction h with
    | nil => exact ⟨rfl, .nil⟩
    | cons hmember _ ih =>
        rw [List.map_cons, List.map_cons, hmember.1, ih.1]
        exact ⟨rfl, .cons hmember.2 ih.2⟩
  · rintro ⟨hkeys, hvalues⟩
    induction members generalizing others with
    | nil =>
        rw [List.map_eq_nil_iff.mp hkeys.symm]
        exact .nil
    | cons member members ih =>
        obtain ⟨other, others, rfl⟩ := List.exists_cons_of_ne_nil
          (l := others) (by rintro rfl; cases hkeys)
        obtain ⟨hkey, hkeys⟩ := List.cons.inj hkeys
        cases hvalues with
        | cons hvalue hvalues => exact .cons ⟨hkey, hvalue⟩ (ih hkeys hvalues)

theorem reordered_obj {members others : List (String × Json)} :
    Reordered (.obj members) (.obj others) ↔
      ∃ moved, members.Perm moved ∧ List.Forall₂ ReorderedMember moved others := by
  constructor
  · rintro (_ | _ | _ | _ | _ | ⟨order, keys, values⟩)
    exact ⟨_, order, forall₂_reorderedMember_iff.mpr ⟨keys, values⟩⟩
  · rintro ⟨moved, horder, hsame⟩
    obtain ⟨hkeys, hvalues⟩ := forall₂_reorderedMember_iff.mp hsame
    exact .obj horder hkeys hvalues

theorem Reordered.refl (value : Json) : Reordered value value := by
  induction value with
  | null => exact .null
  | bool value => exact .bool value
  | num value => exact .num value
  | str text => exact .str text
  | arr items ih => exact .arr (List.forall₂_same.mpr ih)
  | obj members ih =>
      exact reordered_obj.mpr
        ⟨members, .rfl, List.forall₂_same.mpr fun member hmember => ⟨rfl, ih member hmember⟩⟩

theorem forall₂_trans {α : Type} {R : α → α → Prop} {first second third : List α}
    (htrans : ∀ x ∈ first, ∀ y z, R x y → R y z → R x z)
    (h : List.Forall₂ R first second) (h' : List.Forall₂ R second third) :
    List.Forall₂ R first third := by
  induction h generalizing third with
  | nil => exact h'
  | cons hhead _ ih =>
      obtain ⟨hfirst, hrest⟩ := List.forall_mem_cons.mp htrans
      cases h' with
      | cons hhead' htail' => exact .cons (hfirst _ _ hhead hhead') (ih hrest htail')

theorem Reordered.trans {first second third : Json} (h : Reordered first second)
    (h' : Reordered second third) : Reordered first third := by
  induction first generalizing second third with
  | arr items ih =>
      cases h with
      | arr each =>
          cases h' with
          | arr each' =>
              exact .arr (forall₂_trans (fun item hitem _ _ => ih item hitem) each each')
  | obj members ih =>
      obtain ⟨held, rfl⟩ : ∃ held, second = .obj held := by
        cases h
        exact ⟨_, rfl⟩
      obtain ⟨others, rfl⟩ : ∃ others, third = .obj others := by
        cases h'
        exact ⟨_, rfl⟩
      obtain ⟨moved, horder, hsame⟩ := reordered_obj.mp h
      obtain ⟨moved', horder', hsame'⟩ := reordered_obj.mp h'
      -- The second change of order may be made before the values are replaced for the first time.
      have hboth : Relation.Comp (List.Forall₂ ReorderedMember) List.Perm moved moved' :=
        ⟨held, hsame, horder'⟩
      rw [List.forall₂_comp_perm_eq_perm_comp_forall₂] at hboth
      obtain ⟨early, hearly, hreplaced⟩ := hboth
      refine reordered_obj.mpr ⟨early, horder.trans hearly, forall₂_trans ?_ hreplaced hsame'⟩
      intro member hmember _ _ hfirst hsecond
      have hheld : member ∈ members := (horder.trans hearly).mem_iff.mpr hmember
      exact ⟨hfirst.1.trans hsecond.1, ih member hheld hfirst.2 hsecond.2⟩
  | _ =>
      cases h
      exact h'

/-! ### Changing members -/

theorem lookup_eq_of_perm {members moved : List (String × Json)} (horder : members.Perm moved)
    (hnodup : (members.map Prod.fst).Nodup) (key : String) :
    members.lookup key = moved.lookup key := by
  have hnodup' : (moved.map Prod.fst).Nodup := (horder.map Prod.fst).nodup_iff.mp hnodup
  apply Option.ext
  intro value
  rw [lookup_eq_some_iff_mem hnodup, lookup_eq_some_iff_mem hnodup', horder.mem_iff]

theorem perm_amend {members moved : List (String × Json)} (horder : members.Perm moved)
    (hnodup : (members.map Prod.fst).Nodup) (key : String) (change : Option Json → Json) :
    (amend key change members).Perm (amend key change moved) := by
  induction horder with
  | nil => exact .rfl
  | @cons member members moved horder ih =>
      obtain ⟨name, value⟩ := member
      rw [amend, amend]
      split
      · exact horder.cons _
      · exact (ih (List.nodup_cons.mp hnodup).2).cons _
  | swap first second members =>
      obtain ⟨name, value⟩ := first
      obtain ⟨other, value'⟩ := second
      have hne : other ≠ name := by
        rintro rfl
        simp at hnodup
      by_cases hname : name = key
      · have hother : other ≠ key := hname ▸ hne
        simpa [amend, hname, hother] using List.Perm.swap ..
      · by_cases hother : other = key
        · simpa [amend, hname, hother] using List.Perm.swap ..
        · simpa [amend, hname, hother] using List.Perm.swap ..
  | trans horder _ ih ih' =>
      exact (ih hnodup).trans (ih' ((horder.map Prod.fst).nodup_iff.mp hnodup))

theorem forall₂_amend {key : String} {change change' : Option Json → Json}
    {members others : List (String × Json)}
    (hsame : List.Forall₂ ReorderedMember members others)
    (hnone : Reordered (change none) (change' none))
    (hsome : ∀ value other, members.lookup key = some value → others.lookup key = some other →
      Reordered value other → Reordered (change (some value)) (change' (some other))) :
    List.Forall₂ ReorderedMember (amend key change members) (amend key change' others) := by
  induction hsame with
  | nil => exact .cons ⟨rfl, hnone⟩ .nil
  | @cons member other members others hmember hrest ih =>
      obtain ⟨name, value⟩ := member
      obtain ⟨_, value'⟩ := other
      obtain ⟨rfl, hvalue⟩ := hmember
      by_cases hname : name = key
      · subst hname
        rw [amend, amend, if_pos rfl, if_pos rfl]
        exact .cons ⟨rfl, hsome value value' (by simp) (by simp) hvalue⟩ hrest
      · rw [amend, amend, if_neg hname, if_neg hname]
        simp only [lookup_cons_of_ne (Ne.symm hname)] at hsome
        exact .cons ⟨rfl, hvalue⟩ (ih hsome)

/-! ### Putting values -/

theorem Reordered.merge_nest {keys : List String} {base other : Json} (h : Reordered base other)
    (hbase : Free keys base) (hother : Free keys other) (value : Json) :
    Reordered (merge base (nest keys value)) (merge other (nest keys value)) := by
  induction keys generalizing base other with
  | nil => exact hbase.elim
  | cons key keys ih =>
      cases h with
      | @obj members _ others order keys' values =>
          obtain ⟨moved, horder, hsame⟩ := reordered_obj.mp (.obj order keys' values)
          obtain ⟨hnodup, hbelow⟩ := hbase
          obtain ⟨-, hbelowOther⟩ := hother
          rw [merge_nest_cons, merge_nest_cons]
          refine reordered_obj.mpr
            ⟨_, perm_amend horder hnodup key _, forall₂_amend hsame (.refl _) ?_⟩
          intro held held' hheld hheld' hreordered
          rw [← lookup_eq_of_perm horder hnodup] at hheld
          exact ih hreordered (hbelow held hheld) (hbelowOther held' hheld')
      | _ => exact hbase.elim

theorem amend_comm_perm {key other : String} (hne : other ≠ key)
    (change changeOther : Option Json → Json) (members : List (String × Json)) :
    (amend other changeOther (amend key change members)).Perm
      (amend key change (amend other changeOther members)) := by
  by_cases hkey : key ∈ members.map Prod.fst
  · rw [amend_comm_of_mem hne change changeOther hkey]
  · by_cases hother : other ∈ members.map Prod.fst
    · rw [amend_comm_of_mem hne.symm changeOther change hother]
    · -- Both keys are new, so the two members stand at the end in one order or the other.
      have hkey' : key ∉ (amend other changeOther members).map Prod.fst := by
        simp [keys_amend, hother, hkey, hne.symm]
      have hother' : other ∉ (amend key change members).map Prod.fst := by
        simp [keys_amend, hother, hkey, hne]
      rw [amend_of_not_mem _ hother', amend_of_not_mem _ hkey', amend_of_not_mem _ hkey,
        amend_of_not_mem _ hother, List.append_assoc, List.append_assoc]
      exact List.Perm.append_left members (.swap ..)

/-- Two values put at paths that are apart may change places. -/
theorem reordered_merge_nest_comm {one other : List String} {base : Json} (hapart : Apart one other)
    (hone : Free one base) (hother : Free other base) (value value' : Json) :
    Reordered (merge (merge base (nest one value)) (nest other value'))
      (merge (merge base (nest other value')) (nest one value)) := by
  induction one generalizing other base with
  | nil => exact (not_apart_nil_left _ hapart).elim
  | cons key one ih =>
      cases other with
      | nil => exact (not_apart_nil_right _ hapart).elim
      | cons name other =>
          cases base with
          | obj members =>
              rw [merge_nest_cons, merge_nest_cons, merge_nest_cons, merge_nest_cons]
              by_cases hname : name = key
              · subst hname
                have hbelow := apart_cons_cons.mp hapart rfl
                rw [amend_amend_same, amend_amend_same]
                refine reordered_obj.mpr ⟨_, .rfl, forall₂_amend
                  (List.forall₂_same.mpr fun member _ => ⟨rfl, .refl member.2⟩) ?_ ?_⟩
                · -- The key is new, so it is as if the values were put in an empty mapping.
                  have hone' : one ≠ [] := by
                    rintro rfl
                    exact not_apart_nil_left _ hbelow
                  have hother' : other ≠ [] := by
                    rintro rfl
                    exact not_apart_nil_right _ hbelow
                  have hempty := ih hbelow (free_empty hone') (free_empty hother')
                  rwa [merge_empty_nest hone', merge_empty_nest hother'] at hempty
                · intro held held' hheld hheld' _
                  obtain rfl : held = held' := Option.some.inj (hheld.symm.trans hheld')
                  exact ih hbelow (hone.2 held hheld) (hother.2 held hheld)
              · exact reordered_obj.mpr ⟨_, amend_comm_perm hname _ _ members,
                  List.forall₂_same.mpr fun member _ => ⟨rfl, .refl member.2⟩⟩
          | _ => exact hone.elim

theorem Fits.perm {placed moved : List (List String × Json)} {base : Json} (h : Fits placed base)
    (horder : placed.Perm moved) : Fits moved base := by
  constructor
  · exact (horder.pairwise_iff fun hapart => hapart.symm).mp h.apart
  · intro placement hplaced
    exact h.free placement (horder.mem_iff.mpr hplaced)

theorem Reordered.putAll {placed : List (List String × Json)} {base other : Json}
    (h : Reordered base other) (hbase : Fits placed base) (hother : Fits placed other) :
    Reordered (putAll base placed) (putAll other placed) := by
  induction placed generalizing base other with
  | nil => exact h
  | cons placement placed ih =>
      have hfirst := h.merge_nest (hbase.free placement (by simp)) (hother.free placement (by simp))
        placement.2
      exact ih hfirst hbase.rest hother.rest

theorem reordered_putAll_of_perm {placed moved : List (List String × Json)} {base : Json}
    (horder : placed.Perm moved) (hfits : Fits placed base) :
    Reordered (putAll base placed) (putAll base moved) := by
  induction horder generalizing base with
  | nil => exact .refl base
  | cons placement _ ih => exact ih hfits.rest
  | swap first second placed =>
      have hmoved := hfits.perm (.swap first second placed)
      have hapart := (List.pairwise_cons.mp hfits.apart).1 first (by simp)
      have hswap := reordered_merge_nest_comm hapart (hfits.free second (by simp))
        (hfits.free first (by simp)) second.2 first.2
      exact hswap.putAll hfits.rest.rest hmoved.rest.rest
  | trans horder _ ih ih' => exact (ih hfits).trans (ih' (hfits.perm horder))

end Reshape.Json

namespace Reshape.Template

open Json

/-- Where no target is equal to another or a prefix of it, a permutation of the entries changes
nothing in the result but the order of members. -/
theorem reordered_project_of_perm {entries moved : List Entry} (h : TargetsApart entries)
    (horder : entries.Perm moved) (source : Json) :
    Reordered (project (.fields entries) source) (project (.fields moved) source) := by
  rw [project_fields, project_fields]
  exact reordered_putAll_of_perm (horder.filterMap _) (h.fits_placements source)

theorem reordered_project_of_perm_sharedPrefix :
    TargetsApart sharedPrefixEntries ∧
    sharedPrefixEntries.Perm sharedPrefixEntries.reverse ∧
    project (.fields sharedPrefixEntries) sharedPrefixSource =
      .obj [("a", .obj [("b", .str "t"), ("c", .arr [.obj [("name", .str "n")], .obj []])])] ∧
    project (.fields sharedPrefixEntries.reverse) sharedPrefixSource =
      .obj [("a", .obj [("c", .arr [.obj [("name", .str "n")], .obj []]), ("b", .str "t")])] ∧
    Reordered (project (.fields sharedPrefixEntries) sharedPrefixSource)
      (project (.fields sharedPrefixEntries.reverse) sharedPrefixSource) := by
  have hapart : TargetsApart sharedPrefixEntries := ⟨by decide, by decide⟩
  have horder : sharedPrefixEntries.Perm sharedPrefixEntries.reverse :=
    (List.reverse_perm sharedPrefixEntries).symm
  exact ⟨hapart, horder, rfl, rfl, reordered_project_of_perm hapart horder sharedPrefixSource⟩

end Reshape.Template
