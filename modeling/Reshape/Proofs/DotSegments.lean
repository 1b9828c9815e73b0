import Mathlib.Data.List.DropRight
import Reshape.Path

/-!
Dot segments.

A segment `.` of a path stands for the place where it is, and a segment `..` for the place above,
so whoever follows a path first takes them out of it. A path is left as it is when it has none of
them (`removeDotSegments_eq_self`). One at its end is replaced by an empty segment, and `..` takes
the segment before it along (`removeDotSegments_dot`, `removeDotSegments_dots`).
-/

namespace Reshape.Web

/-- A path without its last segment and the slash before that. -/
def withoutLastSegment (path : List Char) : List Char :=
  (path.rdropWhile (· ≠ '/')).dropLast

/-- Takes the dot segments out of what is left of a path, segment by segment. What has been kept of
the path stands in front. -/
def removeDots (kept : List Char) : List Char → List Char
  | [] => kept
  | '.' :: '.' :: '/' :: rest => removeDots kept rest
  | '.' :: '/' :: rest => removeDots kept rest
  | '/' :: '.' :: '/' :: rest => removeDots kept ('/' :: rest)
  | ['/', '.'] => removeDots kept ['/']
  | '/' :: '.' :: '.' :: '/' :: rest => removeDots (withoutLastSegment kept) ('/' :: rest)
  | ['/', '.', '.'] => removeDots (withoutLastSegment kept) ['/']
  | ['.'] => kept
  | ['.', '.'] => kept
  | c :: rest =>
      removeDots (kept ++ c :: rest.takeWhile (· ≠ '/')) (rest.dropWhile (· ≠ '/'))
termination_by path => path.length
decreasing_by all_goals grind [List.length_dropWhile_le]

def removeDotSegments (path : List Char) : List Char :=
  removeDots [] path

/-- What a segment is that is no dot segment. -/
def IsOrdinary (segment : List Char) : Prop :=
  segment ≠ ['.'] ∧ segment ≠ ['.', '.']

/-- A path in which no segment is a dot segment. -/
def DotFree (path : List Char) : Prop :=
  ∀ segment ∈ path.splitOn '/', IsOrdinary segment

instance (path : List Char) : Decidable (DotFree path) :=
  inferInstanceAs (Decidable (∀ segment ∈ path.splitOn '/', segment ≠ ['.'] ∧ segment ≠ ['.', '.']))

/-- What may stand behind a segment. -/
def EndsSegment (rest : List Char) : Prop :=
  rest = [] ∨ ∃ more, rest = '/' :: more

section

variable {segment rest : List Char} (hslash : '/' ∉ segment) (hrest : EndsSegment rest)

include hslash hrest

theorem takeWhile_segment : (segment ++ rest).takeWhile (· ≠ '/') = segment := by
  have hsegment : ∀ c ∈ segment, decide (c ≠ '/') = true := by
    rintro c hc
    exact decide_eq_true fun h => hslash (h ▸ hc)
  rw [List.takeWhile_append_of_pos hsegment]
  rcases hrest with rfl | ⟨more, rfl⟩ <;> simp

theorem dropWhile_segment : (segment ++ rest).dropWhile (· ≠ '/') = rest := by
  have hparts := List.takeWhile_append_dropWhile (p := (· ≠ '/')) (l := segment ++ rest)
  rw [takeWhile_segment hslash hrest] at hparts
  exact List.append_cancel_left hparts

theorem removeDots_slash_segment (hordinary : IsOrdinary segment) (kept : List Char) :
    removeDots kept ('/' :: (segment ++ rest)) = removeDots (kept ++ '/' :: segment) rest := by
  obtain ⟨hdot, hdots⟩ := hordinary
  have hsegment := takeWhile_segment hslash hrest
  rw [removeDots, hsegment, dropWhile_segment hslash hrest]
  -- What else may stand behind the slash begins with a dot segment.
  all_goals intros
  all_goals simp_all

theorem removeDots_segment (hne : segment ≠ []) (hordinary : IsOrdinary segment)
    (kept : List Char) :
    removeDots kept (segment ++ rest) = removeDots (kept ++ segment) rest := by
  obtain ⟨hdot, hdots⟩ := hordinary
  obtain ⟨c, segment, rfl⟩ := List.exists_cons_of_ne_nil hne
  obtain ⟨hc, hslash⟩ := not_or.mp (List.mem_cons.not.mp hslash)
  have hsegment := takeWhile_segment hslash hrest
  rw [List.cons_append, removeDots, hsegment, dropWhile_segment hslash hrest]
  all_goals intros
  all_goals simp_all

end

theorem intercalate_cons_eq (segment : List Char) (segments : List (List Char)) :
    ['/'].intercalate (segment :: segments) = segment ++ segments.flatMap ('/' :: ·) := by
  induction segments generalizing segment with
  | nil => simp
  | cons second segments ih => simp [List.intercalate_cons_cons, ih]

theorem endsSegment_flatMap (segments : List (List Char)) {rest : List Char}
    (hrest : EndsSegment rest) : EndsSegment (segments.flatMap ('/' :: ·) ++ rest) := by
  cases segments with
  | nil => simpa using hrest
  | cons segment segments => exact .inr ⟨_, rfl⟩

theorem removeDots_segments {segments : List (List Char)} {rest : List Char}
    (hslash : ∀ segment ∈ segments, '/' ∉ segment)
    (hordinary : ∀ segment ∈ segments, IsOrdinary segment) (hrest : EndsSegment rest)
    (kept : List Char) :
    removeDots kept (segments.flatMap ('/' :: ·) ++ rest) =
      removeDots (kept ++ segments.flatMap ('/' :: ·)) rest := by
  induction segments generalizing kept with
  | nil => simp
  | cons segment segments ih =>
      obtain ⟨hslash, hslashes⟩ := List.forall_mem_cons.mp hslash
      obtain ⟨hordinary, hordinaries⟩ := List.forall_mem_cons.mp hordinary
      have hends := endsSegment_flatMap segments hrest
      rw [List.flatMap_cons, List.cons_append, List.cons_append, List.append_assoc,
        removeDots_slash_segment hslash hends hordinary, ih hslashes hordinaries]
      simp

/-- The front of a path is kept as long as it has no dot segments. -/
theorem removeDotSegments_append {path rest : List Char} (hfree : DotFree path)
    (hrest : EndsSegment rest) : removeDotSegments (path ++ rest) = removeDots path rest := by
  obtain ⟨segment, segments, hsplit⟩ :=
    List.exists_cons_of_ne_nil (List.splitOn_ne_nil '/' path)
  have hpath : path = segment ++ segments.flatMap ('/' :: ·) := by
    rw [← intercalate_cons_eq, ← hsplit, List.intercalate_splitOn]
  have hslashes := Path.not_mem_of_mem_splitOn '/' path
  rw [DotFree, hsplit] at hfree
  rw [hsplit] at hslashes
  obtain ⟨hslash, hslashes⟩ := List.forall_mem_cons.mp hslashes
  obtain ⟨hordinary, hordinaries⟩ := List.forall_mem_cons.mp hfree
  have hlater := fun kept => removeDots_segments hslashes hordinaries hrest kept
  rw [removeDotSegments, hpath, List.append_assoc]
  by_cases hne : segment = []
  · simpa [hne] using hlater []
  · rw [removeDots_segment hslash (endsSegment_flatMap segments hrest) hne hordinary, hlater]
    rfl

theorem removeDotSegments_eq_self {path : List Char} (hfree : DotFree path) :
    removeDotSegments path = path := by
  have h := removeDotSegments_append hfree (.inl rfl)
  rw [List.append_nil, removeDots] at h
  exact h

theorem removeDots_slash (kept : List Char) : removeDots kept ['/'] = kept ++ ['/'] := by
  have hordinary : IsOrdinary [] := by
    simp [IsOrdinary]
  have h := removeDots_slash_segment (by simp) (.inl rfl) hordinary kept
  rw [List.append_nil, removeDots] at h
  exact h

theorem withoutLastSegment_append {segment : List Char} (hslash : '/' ∉ segment)
    (path : List Char) : withoutLastSegment (path ++ '/' :: segment) = path := by
  have hsegment : ∀ c ∈ segment.reverse, decide (c ≠ '/') = true := by
    rintro c hc
    exact decide_eq_true fun h => hslash (h ▸ List.mem_reverse.mp hc)
  have hreverse : (path ++ '/' :: segment).reverse = segment.reverse ++ '/' :: path.reverse := by
    simp
  rw [withoutLastSegment, List.rdropWhile, hreverse, List.dropWhile_append_of_pos hsegment]
  simp

theorem removeDotSegments_dot {path : List Char} (hfree : DotFree path) :
    removeDotSegments (path ++ ['/', '.']) = path ++ ['/'] := by
  rw [removeDotSegments_append hfree (.inr ⟨_, rfl⟩), removeDots, removeDots_slash]

theorem removeDotSegments_dots {path segment : List Char} (hslash : '/' ∉ segment)
    (hfree : DotFree (path ++ '/' :: segment)) :
    removeDotSegments (path ++ '/' :: segment ++ ['/', '.', '.']) = path ++ ['/'] := by
  rw [removeDotSegments_append hfree (.inr ⟨_, rfl⟩), removeDots,
    withoutLastSegment_append hslash, removeDots_slash]

theorem dotFree_append_slash {path rest : List Char} :
    DotFree (path ++ '/' :: rest) ↔ DotFree path ∧ DotFree rest := by
  rw [DotFree, List.splitOn_append_cons_self]
  exact List.forall_mem_append

theorem dotFree_iff_isOrdinary {segment : List Char} (hslash : '/' ∉ segment) :
    DotFree segment ↔ IsOrdinary segment := by
  rw [DotFree, List.splitOn_eq_singleton hslash]
  exact List.forall_mem_singleton

end Reshape.Web
