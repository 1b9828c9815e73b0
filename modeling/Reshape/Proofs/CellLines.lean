import Reshape.Proofs.PrintedText
import Reshape.Table

/-!
The lines of a cell.

A cell shows each value of a sequence on a line of its own, and so it does with the values of the
sequences inside, as if all of them stood in one sequence (`cell_eq_intercalate`). An empty sequence
leaves a line without text. No line is broken in two, unless a string does that itself
(`splitOn_cell_eq_iff`): the text of a mapping has no line breaks, whatever is in its strings and
keys.
-/

namespace Reshape.Table

open Json

/-- The text of a value that is no sequence. -/
def leafText : Json → List Char
  | .str text => text.toList
  | .null => ['-']
  | value => value.compactText

mutual

/-- The lines of a value: those of its items, or a single one without text, for a sequence, and a
single one for any other value. -/
def leafLines : Json → List (List Char)
  | .arr [] => [[]]
  | .arr (item :: items) => leafLines item ++ itemLines items
  | value => [leafText value]

def itemLines : List Json → List (List Char)
  | [] => []
  | item :: items => leafLines item ++ itemLines items

end

/-- A value is met in another by going into sequences only. -/
inductive Listed (part : Json) : Json → Prop
  | whole : Listed part part
  | item {items : List Json} {item : Json} (mem : item ∈ items) (inside : Listed part item) :
      Listed part (.arr items)

theorem leafLines_arr {items : List Json} (hne : items ≠ []) :
    leafLines (.arr items) = items.flatMap leafLines := by
  have hitems : ∀ items, itemLines items = items.flatMap leafLines := by
    intro items
    induction items with
    | nil => rfl
    | cons item items ih => rw [itemLines, ih, List.flatMap_cons]
  obtain ⟨item, items, rfl⟩ := List.exists_cons_of_ne_nil hne
  rw [leafLines, hitems, List.flatMap_cons]

theorem leafLines_of_kind_ne {value : Json} (h : value.kind ≠ .sequence) :
    leafLines value = [leafText value] := by
  cases value with
  | arr items => exact (h rfl).elim
  | _ => rfl

theorem leafLines_ne_nil (value : Json) : leafLines value ≠ [] := by
  induction value with
  | arr items ih =>
      cases items with
      | nil => simp [leafLines]
      | cons item items => simp [leafLines, ih item]
  | _ => simp [leafLines]

theorem leafText_mem_leafLines {part value : Json} (hpart : Listed part value)
    (hkind : part.kind ≠ .sequence) : leafText part ∈ leafLines value := by
  induction hpart with
  | whole => simp [leafLines_of_kind_ne hkind]
  | item mem _ ih =>
      rw [leafLines_arr (List.ne_nil_of_mem mem)]
      exact List.mem_flatMap.mpr ⟨_, mem, ih⟩

/-- A line is that of a value without items, or has no text. -/
theorem exists_leaf_of_mem_leafLines {line : List Char} {value : Json}
    (h : line ∈ leafLines value) :
    line = [] ∨ ∃ part, Listed part value ∧ part.kind ≠ .sequence ∧ line = leafText part := by
  induction value with
  | arr items ih =>
      by_cases hne : items = []
      · subst hne
        exact .inl (List.mem_singleton.mp h)
      · rw [leafLines_arr hne] at h
        obtain ⟨item, hitem, h⟩ := List.mem_flatMap.mp h
        rcases ih item hitem h with h | ⟨part, hpart, hkind, h⟩
        · exact .inl h
        · exact .inr ⟨part, .item hitem hpart, hkind, h⟩
  | _ => exact .inr ⟨_, .whole, by simp [kind], List.mem_singleton.mp h⟩

/-! ### Cells -/

theorem cells_eq_intercalate (items : List Json) :
    cells items = ['\n'].intercalate (items.map cell) := by
  induction items with
  | nil => rfl
  | cons item items ih =>
      cases items with
      | nil => simp [cells]
      | cons second items => simp [cells, ih, List.intercalate_cons_cons]

theorem cell_of_kind_ne {value : Json} (h : value.kind ≠ .sequence) :
    cell value = leafText value := by
  cases value with
  | arr items => exact (h rfl).elim
  | _ => rfl

/-- A cell is made of its lines with line breaks between them. -/
theorem cell_eq_intercalate (value : Json) : cell value = ['\n'].intercalate (leafLines value) := by
  induction value with
  | arr items ih =>
      by_cases hne : items = []
      · subst hne
        rfl
      · rw [cell, cells_eq_intercalate, leafLines_arr hne, List.map_congr_left ih]
        exact intercalate_map_intercalate fun item _ => leafLines_ne_nil item
  | _ =>
      rw [cell_of_kind_ne (by simp [kind]), leafLines_of_kind_ne (by simp [kind])]
      simp

theorem newline_not_mem_compactText (value : Json) : '\n' ∉ value.compactText := by
  have hprinting : ∀ c ∈ value.compactText, 0x20 ≤ c.toNat :=
    compact_isLayout.forall_mem (List.all_iff_forall_prop.mp (by decide)) (by simp) (by simp)
      (fun _ _ => printing_of_mem_scalarText) 0 value
  exact fun h => absurd (hprinting _ h) (by decide)

theorem newline_not_mem_leafText {value : Json}
    (h : ∀ text, value = .str text → '\n' ∉ text.toList) : '\n' ∉ leafText value := by
  cases value with
  | str text => exact h text rfl
  | null => simp [leafText]
  | _ => exact newline_not_mem_compactText _

/-- The lines that a cell parts into are those of its value, just if none of the strings that are
listed in it has a line break. -/
theorem splitOn_cell_eq_iff (value : Json) :
    (cell value).splitOn '\n' = leafLines value ↔
      ∀ text, Listed (.str text) value → '\n' ∉ text.toList := by
  rw [cell_eq_intercalate]
  constructor
  · -- No piece holds the mark that it was split at, and a string that is listed is such a piece.
    intro h text htext
    have hline : leafText (.str text) ∈ leafLines value :=
      leafText_mem_leafLines htext (by simp [kind])
    rw [← h] at hline
    exact Path.not_mem_of_mem_splitOn '\n' _ _ hline
  · intro h
    refine List.splitOn_intercalate '\n' ?_ (leafLines_ne_nil value)
    intro line hline
    rcases exists_leaf_of_mem_leafLines hline with rfl | ⟨part, hpart, -, rfl⟩
    · simp
    · apply newline_not_mem_leafText
      rintro text rfl
      exact h text hpart

example : cell (.arr [.arr [], .str "", .arr [.null, .obj [("a\n", .str "\n")]]]) =
    "\n\n-\n\x7b\"a\\n\":\"\\n\"\x7d".toList := by
  decide

end Reshape.Table
