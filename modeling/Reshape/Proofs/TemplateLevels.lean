import Reshape.Proofs.DistinctKeys
import Reshape.Proofs.EntryPlacement

/-!
The levels of a template.

A template holds further templates inside its entries. `Template.induction` goes from these to
the whole, and `EveryLevel` says something of the entries of each level at any depth.
-/

namespace Reshape.Template

open Json

theorem sizeOf_lt_of_fields? {entry : Entry} {inner : Template} (h : entry.fields? = some inner) :
    sizeOf inner < sizeOf entry := by
  cases entry with
  | scalar output source => cases h
  | object output source fields =>
      cases h
      simp only [Entry.object.sizeOf_spec]
      omega
  | group output source groupKey fields =>
      cases h
      simp only [Entry.group.sizeOf_spec]
      omega

/-- Induction over templates: a property of the templates inside some entries holds of the
template of these entries. -/
@[elab_as_elim, induction_eliminator]
theorem induction {motive : Template → Prop}
    (fields : ∀ entries, (∀ entry ∈ entries, ∀ inner, entry.fields? = some inner →
      motive inner) → motive (.fields entries))
    (paths : ∀ items, motive (.paths items)) : ∀ t, motive t
  | .fields entries => fields entries fun _ _ inner _ => induction fields paths inner
  | .paths items => paths items
termination_by t => sizeOf t
decreasing_by
  rename_i entry hentry hinner
  have := List.sizeOf_lt_of_mem hentry
  have := sizeOf_lt_of_fields? hinner
  simp only [Template.fields.sizeOf_spec]
  omega

/-- Something holds of the entries of a template and of those of every template inside it. -/
inductive EveryLevel (holds : List Entry → Prop) : Template → Prop
  | fields {entries : List Entry} (level : holds entries)
      (inside : ∀ entry ∈ entries, ∀ inner, entry.fields? = some inner →
        EveryLevel holds inner) : EveryLevel holds (.fields entries)
  | paths (items : List Path) : EveryLevel holds (.paths items)

theorem everyLevel_fields {holds : List Entry → Prop} {entries : List Entry} :
    EveryLevel holds (.fields entries) ↔
      holds entries ∧
        ∀ entry ∈ entries, ∀ inner, entry.fields? = some inner → EveryLevel holds inner := by
  constructor
  · rintro ⟨hlevel, hinside⟩
    exact ⟨hlevel, hinside⟩
  · rintro ⟨hlevel, hinside⟩
    exact .fields hlevel hinside

theorem everyLevel_of_forall {holds : List Entry → Prop} (h : ∀ entries, holds entries)
    (t : Template) : EveryLevel holds t := by
  induction t with
  | fields entries ih => exact .fields (h entries) ih
  | paths items => exact .paths items

/-- What is equivalent at the levels of a template is so at every level. -/
theorem EveryLevel.congr {base left right : List Entry → Prop} {t : Template}
    (h : EveryLevel base t) (hiff : ∀ entries, base entries → (left entries ↔ right entries)) :
    EveryLevel left t ↔ EveryLevel right t := by
  induction h with
  | @fields entries hlevel _ ih =>
      rw [everyLevel_fields, everyLevel_fields]
      apply and_congr (hiff entries hlevel)
      exact forall₂_congr fun entry hentry => forall₂_congr fun inner hinner =>
        ih entry hentry inner hinner
  | paths items => exact iff_of_true (.paths items) (.paths items)

mutual

def everyLevel (holds : List Entry → Bool) : Template → Bool
  | .fields entries => holds entries && everyLevelInside holds entries
  | .paths _ => true

def everyLevelInside (holds : List Entry → Bool) : List Entry → Bool
  | [] => true
  | entry :: entries => everyLevelEntry holds entry && everyLevelInside holds entries

def everyLevelEntry (holds : List Entry → Bool) : Entry → Bool
  | .scalar _ _ => true
  | .object _ _ inner | .group _ _ _ inner => everyLevel holds inner

end

theorem everyLevelEntry_iff {holds : List Entry → Bool} {entry : Entry} :
    everyLevelEntry holds entry ↔ ∀ inner, entry.fields? = some inner → everyLevel holds inner := by
  cases entry <;> simp [everyLevelEntry, Entry.fields?]

theorem everyLevelInside_iff {holds : List Entry → Bool} {entries : List Entry} :
    everyLevelInside holds entries ↔
      ∀ entry ∈ entries, ∀ inner, entry.fields? = some inner → everyLevel holds inner := by
  induction entries with
  | nil => simp [everyLevelInside]
  | cons entry entries ih =>
      rw [everyLevelInside, Bool.and_eq_true, everyLevelEntry_iff, ih, List.forall_mem_cons]

theorem everyLevel_iff {holds : List Entry → Bool} {t : Template} :
    everyLevel holds t ↔ EveryLevel (fun entries => holds entries) t := by
  induction t with
  | fields entries ih =>
      rw [everyLevel, Bool.and_eq_true, everyLevelInside_iff, everyLevel_fields]
      apply and_congr_right
      intro _
      exact forall₂_congr fun entry hentry => forall₂_congr fun inner hinner =>
        ih entry hentry inner hinner
  | paths items => exact iff_of_true rfl (.paths items)

instance (holds : List Entry → Prop) [DecidablePred holds] (t : Template) :
    Decidable (EveryLevel holds t) :=
  decidable_of_iff (everyLevel (fun entries => decide (holds entries)) t) (by
    simp only [everyLevel_iff, decide_eq_true_eq])

/-! ### Properties that are decided by parts -/

section

variable {holds : Json → Prop} {keysHold : List String → Prop} (h : ByParts holds keysHold)

include h

theorem holds_onEach {change : Json → Json} (hchange : ∀ value, holds value → holds (change value))
    {value : Json} (hvalue : holds value) : holds (value.onEach change) := by
  cases value with
  | arr items =>
      apply h.arr.mpr
      rintro _ hitem
      obtain ⟨item, hmem, rfl⟩ := List.mem_map.mp hitem
      exact hchange item (h.arr.mp hvalue item hmem)
  | _ => exact hchange _ hvalue

theorem holds_contribution? {entry : Entry} {source value : Json}
    (hinner : ∀ inner, entry.fields? = some inner →
      ∀ value, holds value → holds (inner.project value))
    (hsource : holds source) (hvalue : contribution? entry source = some value) : holds value := by
  rw [contribution?_eq] at hvalue
  obtain ⟨held, hheld, rfl⟩ := Option.map_eq_some_iff.mp hvalue
  have hheld := h.descend? hsource hheld
  cases hfields : entry.fields? with
  | none => exact hheld
  | some inner => exact holds_onEach h (hinner inner hfields) hheld

/-- A property that the parts of a document decide is kept by projection, as long as a mapping may
have the keys of the targets. -/
theorem holds_project {t : Template}
    (hkeys : EveryLevel (fun entries =>
      ∀ entry ∈ entries, ∀ key ∈ entry.target.keys, keysHold [key]) t)
    {source : Json} (hsource : holds source) : holds (t.project source) := by
  induction t generalizing source with
  | fields entries ih =>
      obtain ⟨hlevel, hinside⟩ := everyLevel_fields.mp hkeys
      rw [project_fields]
      refine h.putAll h.empty ?_ ?_
      · intro placement hplacement
        obtain ⟨entry, hentry, -, htarget⟩ := mem_placements.mp hplacement
        exact htarget ▸ hlevel entry hentry
      · intro placement hplacement
        obtain ⟨entry, hentry, hvalue, -⟩ := mem_placements.mp hplacement
        exact holds_contribution? h
          (fun inner hinner value =>
            ih entry hentry inner hinner (hinside entry hentry inner hinner))
          hsource hvalue
  | paths items =>
      rw [project]
      apply h.arr.mpr
      intro item hitem
      obtain ⟨path, -, hresolve⟩ := List.mem_filterMap.mp hitem
      exact h.descend? hsource hresolve

end

/-- Projection makes no key occur twice. -/
theorem keysDistinct_project (t : Template) {source : Json} (hsource : source.keysDistinct) :
    (t.project source).keysDistinct := by
  have hkeys : EveryLevel (fun entries =>
      ∀ entry ∈ entries, ∀ key ∈ entry.target.keys, [key].Nodup) t := by
    apply everyLevel_of_forall
    simp
  exact holds_project byParts_keysDistinct hkeys hsource

theorem keysDistinct_contribution? {entry : Entry} {source value : Json}
    (hsource : source.keysDistinct) (h : contribution? entry source = some value) :
    value.keysDistinct :=
  holds_contribution? byParts_keysDistinct
    (fun inner _ _ hvalue => keysDistinct_project inner hvalue) hsource h

end Reshape.Template
