import Reshape.Json

/-!
Dotted paths: addresses within nested mappings.

A path is a list of segments, each a text without a dot that is not empty, and is written with
dots between them. `Path.parse` reads just the texts that write a path. `resolve` reads the value
at a path out of a document, and `wrap` makes the smallest document that has a value there.
-/

namespace Reshape

/-- A list of segments that is not empty; a segment is not empty either and holds no dot. -/
structure Path where
  segments : List String
  segments_ne_nil : segments ≠ []
  segments_valid : ∀ segment ∈ segments, segment ≠ "" ∧ '.' ∉ segment.toList
deriving DecidableEq

/-- Why a text is no path. -/
inductive PathError where
  | empty
  | emptySegment (path : String)
deriving DecidableEq

/-- The wording of a path error. -/
def PathError.message : PathError → String
  | .empty => "field path is empty"
  | .emptySegment path => "field path `" ++ path ++ "` contains an empty segment"

namespace Path

/-- The texts between the dots of a text. -/
def pieces (text : String) : List String :=
  (text.toList.splitOn '.').map String.ofList

theorem pieces_ne_nil (text : String) : pieces text ≠ [] := by
  simp [pieces]

theorem not_mem_of_mem_splitOn {α : Type} [BEq α] [LawfulBEq α] (separator : α)
    (items : List α) : ∀ piece ∈ items.splitOn separator, separator ∉ piece := by
  induction items with
  | nil => simp
  | cons item rest ih =>
      obtain ⟨piece, pieces, hrest⟩ :=
        List.exists_cons_of_ne_nil (List.splitOn_ne_nil separator rest)
      rw [List.splitOn_cons_eq_if_modifyHead, hrest, List.modifyHead_cons]
      rw [hrest] at ih
      grind

theorem dot_not_mem_of_mem_pieces {text segment : String} (h : segment ∈ pieces text) :
    '.' ∉ segment.toList := by
  obtain ⟨piece, hpiece, rfl⟩ := List.mem_map.1 h
  simpa using not_mem_of_mem_splitOn '.' _ piece hpiece

/-- Reads a path. -/
def parse (text : String) : Except PathError Path :=
  if text = "" then .error .empty
  else if h : "" ∈ pieces text then .error (.emptySegment text)
  else .ok ⟨pieces text, pieces_ne_nil text, fun _ hs =>
    ⟨fun he => h (he ▸ hs), dot_not_mem_of_mem_pieces hs⟩⟩

/-- Whether texts are the segments of a path. -/
def areSegments (segments : List String) : Bool :=
  !segments.isEmpty &&
    segments.all fun segment => segment != "" && !segment.toList.contains '.'

theorem areSegments_iff {segments : List String} :
    areSegments segments ↔
      segments ≠ [] ∧ ∀ segment ∈ segments, segment ≠ "" ∧ '.' ∉ segment.toList := by
  simp [areSegments]

/-- The path with given segments. -/
def ofSegments (segments : List String)
    (valid : areSegments segments = true := by exact Eq.refl true) : Path :=
  ⟨segments, (areSegments_iff.mp valid).1, (areSegments_iff.mp valid).2⟩

/-- How a path is written. -/
def text (p : Path) : String :=
  String.intercalate "." p.segments

/-- The value at a path. -/
def resolve (p : Path) (source : Json) : Option Json :=
  source.descend? p.segments

/-- The mappings that hold nothing but a value at a path. -/
def wrap (p : Path) (value : Json) : Json :=
  value.nest p.segments

end Path

end Reshape
