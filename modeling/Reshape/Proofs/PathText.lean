import Reshape.Proofs.Basic
import Reshape.Template.Error

/-!
Paths and targets as texts.

A text that is read as a path is how that path is written, and a path that is written is read back
as itself. The same holds of targets, except for the path with the one segment `-`: its text
stands for the level, so the level is what is read back. The texts of paths are those that have a
segment before, between and behind their dots.
-/

namespace Reshape

namespace Path

theorem parse_eq_ok {text : String} {p : Path} :
    parse text = .ok p ↔ text ≠ "" ∧ "" ∉ pieces text ∧ p.segments = pieces text := by
  unfold parse
  split
  · simp_all
  · split
    · simp_all
    · obtain ⟨segments, _, _⟩ := p
      simp_all [eq_comm]

theorem intercalate_pieces (text : String) : String.intercalate "." (pieces text) = text := by
  apply String.toList_inj.mp
  rw [String.toList_intercalate, pieces, List.map_map]
  have hmap : (text.toList.splitOn '.').map (String.toList ∘ String.ofList) =
      text.toList.splitOn '.' := by
    simp [Function.comp_def]
  rw [hmap]
  exact List.intercalate_splitOn '.'

theorem pieces_intercalate {segments : List String} (hne : segments ≠ [])
    (hdots : ∀ segment ∈ segments, '.' ∉ segment.toList) :
    pieces (String.intercalate "." segments) = segments := by
  have hdots' : ∀ chars ∈ segments.map String.toList, '.' ∉ chars := by
    simpa using hdots
  have hsplit : (String.intercalate "." segments).toList.splitOn '.' =
      segments.map String.toList := by
    rw [String.toList_intercalate]
    exact List.splitOn_intercalate '.' hdots' (by simpa using hne)
  rw [pieces, hsplit, List.map_map]
  simp [Function.comp_def]

theorem text_of_parse {text : String} {p : Path} (h : parse text = .ok p) : p.text = text := by
  obtain ⟨-, -, hsegments⟩ := parse_eq_ok.mp h
  rw [Path.text, hsegments, intercalate_pieces]

theorem pieces_text (p : Path) : pieces p.text = p.segments :=
  pieces_intercalate p.segments_ne_nil fun segment hsegment =>
    (p.segments_valid segment hsegment).2

theorem text_ne_empty (p : Path) : p.text ≠ "" := by
  intro hempty
  have hpieces : p.segments = [""] := by
    rw [← pieces_text, hempty]
    rfl
  exact (p.segments_valid "" (by simp [hpieces])).1 rfl

theorem parse_text (p : Path) : parse p.text = .ok p := by
  refine parse_eq_ok.mpr ⟨text_ne_empty p, ?_, (pieces_text p).symm⟩
  rw [pieces_text]
  intro hempty
  exact (p.segments_valid "" hempty).1 rfl

theorem parse_eq_ok_iff_text {text : String} {p : Path} : parse text = .ok p ↔ p.text = text := by
  constructor
  · exact text_of_parse
  · rintro rfl
    exact parse_text p

theorem text_eq_levelText_iff {p : Path} : p.text = Target.levelText ↔ p.segments = ["-"] := by
  constructor
  · intro h
    rw [← p.pieces_text, h]
    rfl
  · intro h
    rw [text, h]
    rfl

theorem parseIn_eq_ok {text : String} {p : Path} : parseIn text = .ok p ↔ parse text = .ok p :=
  mapError_eq_ok

end Path

namespace Target

/-- The target that is read where a target is written. -/
def reread : Target → Target
  | .path p => if p.text = levelText then .level else .path p
  | .level => .level

theorem parse_text (target : Target) : parse target.text = .ok target.reread := by
  cases target with
  | path p =>
      by_cases hlevel : p.text = levelText
      · simp [parse, text, reread, hlevel]
      · simp [parse, text, reread, hlevel, Path.parse_text, Except.map]
  | level => rfl

theorem text_of_parse {text : String} {target : Target} (h : parse text = .ok target) :
    target.text = text := by
  unfold parse at h
  split at h
  · rename_i hlevel
    rw [← Except.ok.inj h, hlevel]
    rfl
  · obtain ⟨p, hp, rfl⟩ := map_eq_ok.mp h
    exact Path.text_of_parse hp

theorem reread_of_parse {text : String} {target : Target} (h : parse text = .ok target) :
    target.reread = target := by
  have hparse := parse_text target
  rw [text_of_parse h, h] at hparse
  exact (Except.ok.inj hparse).symm

theorem text_reread (target : Target) : target.reread.text = target.text :=
  text_of_parse (parse_text target)

theorem reread_eq_iff {target other : Target} :
    target.reread = other.reread ↔ target.text = other.text := by
  constructor
  · intro h
    rw [← text_reread target, h, text_reread]
  · intro h
    have hparse := parse_text target
    rw [h, parse_text other] at hparse
    exact (Except.ok.inj hparse).symm

theorem parse_eq_ok_iff_text {text : String} {target : Target} :
    parse text = .ok target ↔ target.text = text ∧ target.reread = target := by
  constructor
  · intro h
    exact ⟨text_of_parse h, reread_of_parse h⟩
  · rintro ⟨rfl, hreread⟩
    rw [parse_text, hreread]

theorem reread_path_eq_self_iff {p : Path} :
    (Target.path p).reread = .path p ↔ p.segments ≠ ["-"] := by
  rw [reread, ne_eq, ← Path.text_eq_levelText_iff]
  split
  · rename_i htext
    simp [htext]
  · rename_i htext
    simp [htext]

theorem parseIn_eq_ok {text : String} {target : Target} :
    parseIn text = .ok target ↔ parse text = .ok target :=
  mapError_eq_ok

end Target

/-! ### Empty pieces -/

section

variable {α : Type} [BEq α] [LawfulBEq α] (separator : α)

/-- The first piece is empty when nothing stands before a separator. -/
theorem head?_splitOn_eq_nil (items : List α) :
    (items.splitOn separator).head? = some [] ↔ items = [] ∨ items.head? = some separator := by
  cases items with
  | nil => simp
  | cons item rest =>
      rw [List.splitOn_cons_eq_if_modifyHead]
      by_cases hitem : item = separator
      · simp [hitem]
      · obtain ⟨piece, pieces, hrest⟩ :=
          List.exists_cons_of_ne_nil (List.splitOn_ne_nil separator rest)
        simp [hitem, hrest]

/-- A later piece is empty when nothing follows a separator, or just another one. -/
theorem nil_mem_tail_splitOn (items : List α) :
    [] ∈ (items.splitOn separator).tail ↔
      items.getLast? = some separator ∨ [separator, separator] <:+: items := by
  induction items with
  | nil => simp
  | cons item rest ih =>
      obtain ⟨piece, pieces, hrest⟩ :=
        List.exists_cons_of_ne_nil (List.splitOn_ne_nil separator rest)
      have hfirst : piece = [] ↔ rest = [] ∨ rest.head? = some separator := by
        simpa [hrest] using head?_splitOn_eq_nil separator rest
      have hlast : (item :: rest).getLast? = some separator ↔
          rest = [] ∧ item = separator ∨ rest.getLast? = some separator := by
        cases rest <;> simp
      have hpair : [separator, separator] <+: item :: rest ↔
          item = separator ∧ rest.head? = some separator := by
        cases rest <;> grind
      rw [hrest, List.tail_cons] at ih
      rw [List.splitOn_cons_eq_if_modifyHead, hrest, List.infix_cons_iff, hlast, hpair]
      by_cases hitem : item = separator
      · simp only [hitem, beq_self_eq_true, if_true, List.tail_cons, List.mem_cons, and_true,
          true_and, ih]
        grind
      · have hbeq : (item == separator) = false := by simpa using hitem
        simp [hbeq, hitem, ih]

theorem nil_mem_splitOn (items : List α) :
    [] ∈ items.splitOn separator ↔ items = [] ∨ items.head? = some separator ∨
      items.getLast? = some separator ∨ [separator, separator] <:+: items := by
  obtain ⟨piece, pieces, hpieces⟩ :=
    List.exists_cons_of_ne_nil (List.splitOn_ne_nil separator items)
  have hfirst := head?_splitOn_eq_nil separator items
  have hlater := nil_mem_tail_splitOn separator items
  rw [hpieces] at hfirst hlater ⊢
  rw [List.head?_cons, Option.some.injEq] at hfirst
  rw [List.mem_cons, eq_comm, hfirst, ← or_assoc, ← hlater, List.tail_cons, or_assoc]

end

theorem Path.empty_mem_pieces {text : String} :
    "" ∈ pieces text ↔ [] ∈ text.toList.splitOn '.' := by
  simp [pieces]

theorem Path.exists_parse {text : String} :
    (∃ p, parse text = .ok p) ↔ text ≠ "" ∧ [] ∉ text.toList.splitOn '.' := by
  rw [parse, ← empty_mem_pieces]
  by_cases hempty : text = "" <;> by_cases hpieces : "" ∈ pieces text <;> simp [hempty, hpieces]

theorem Path.parse_eq_error {text : String} {fault : PathError} :
    parse text = .error fault ↔ text = "" ∧ fault = .empty ∨
      text ≠ "" ∧ [] ∈ text.toList.splitOn '.' ∧ fault = .emptySegment text := by
  rw [parse, ← empty_mem_pieces]
  by_cases hempty : text = "" <;> by_cases hpieces : "" ∈ pieces text <;>
    simp [hempty, hpieces, eq_comm]

/-- Paths and their texts correspond one to one, and so do targets and theirs, save for the path
with the one segment `-`, which is written as the level is. -/
theorem texts_correspond :
    (∀ text, (∃ p, Path.parse text = .ok p) ↔ text ≠ "" ∧ [] ∉ text.toList.splitOn '.') ∧
    (∀ text : String, [] ∈ text.toList.splitOn '.' ↔ text = "" ∨ text.toList.head? = some '.' ∨
      text.toList.getLast? = some '.' ∨ ['.', '.'] <:+: text.toList) ∧
    (∀ text fault, Path.parse text = .error fault ↔ text = "" ∧ fault = .empty ∨
      text ≠ "" ∧ [] ∈ text.toList.splitOn '.' ∧ fault = .emptySegment text) ∧
    (∀ text p, Path.parse text = .ok p ↔ p.text = text) ∧
    (∀ segments, segments ≠ [] → (∀ segment ∈ segments, segment ≠ "" ∧ '.' ∉ segment.toList) →
      ∃ p : Path, p.segments = segments ∧ p.text = String.intercalate "." segments ∧
        Path.parse p.text = .ok p) ∧
    (∀ text target, Target.parse text = .ok target → Target.parse target.text = .ok target) ∧
    ∀ p : Path, Target.parse (Target.path p).text =
      .ok (if p.segments = ["-"] then .level else .path p) := by
  refine ⟨fun _ => Path.exists_parse, ?_, fun _ _ => Path.parse_eq_error,
    fun _ _ => Path.parse_eq_ok_iff_text, ?_, ?_, ?_⟩
  · intro text
    simpa using nil_mem_splitOn '.' text.toList
  · intro segments hne hvalid
    exact ⟨⟨segments, hne, hvalid⟩, rfl, rfl, Path.parse_text _⟩
  · intro text target h
    rw [Target.parse_text, Target.reread_of_parse h]
  · intro p
    simp only [Target.parse_text, Target.reread, Path.text_eq_levelText_iff]

end Reshape
