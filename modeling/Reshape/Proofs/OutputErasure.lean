import Reshape.Issue.Template
import Reshape.Proofs.LosslessWriting

/-!
Templates without output keys.

A projection does not look at the output key of a grouping entry, and an entry that reshapes without
a group key is projected as one whose group key is its output. `withoutOutputs` forgets both, and
that changes no result (`project_withoutOutputs`). So templates that differ in nothing else project
alike, as the template for issues and its legacy form do.
-/

namespace Reshape

namespace Template

open Json

mutual

/-- A template with every reshaping entry made a group, at any depth. Its group key is the target
of the entry, and its output key is forgotten. -/
def withoutOutputs : Template → Template
  | .fields entries => .fields (entriesWithoutOutputs entries)
  | .paths items => .paths items

def entriesWithoutOutputs : List Entry → List Entry
  | [] => []
  | entry :: rest => entryWithoutOutputs entry :: entriesWithoutOutputs rest

def entryWithoutOutputs : Entry → Entry
  | .scalar output source => .scalar output source
  | .object output source inner => .group .level source output (withoutOutputs inner)
  | .group _ source groupKey inner => .group .level source groupKey (withoutOutputs inner)

end

theorem entriesWithoutOutputs_eq_map (entries : List Entry) :
    entriesWithoutOutputs entries = entries.map entryWithoutOutputs := by
  induction entries with
  | nil => rfl
  | cons entry entries ih => rw [entriesWithoutOutputs, ih, List.map_cons]

theorem source_entryWithoutOutputs (entry : Entry) :
    (entryWithoutOutputs entry).source = entry.source := by
  cases entry <;> rfl

theorem target_entryWithoutOutputs (entry : Entry) :
    (entryWithoutOutputs entry).target = entry.target := by
  cases entry <;> rfl

theorem fields?_entryWithoutOutputs (entry : Entry) :
    (entryWithoutOutputs entry).fields? = entry.fields?.map withoutOutputs := by
  cases entry <;> rfl

theorem contribution?_entryWithoutOutputs {entry : Entry}
    (hinner : ∀ inner, entry.fields? = some inner →
      ∀ source, inner.withoutOutputs.project source = inner.project source) (source : Json) :
    contribution? (entryWithoutOutputs entry) source = contribution? entry source :=
  contribution?_congr (source_entryWithoutOutputs entry) (fields?_entryWithoutOutputs entry) hinner
    source

theorem project_withoutOutputs (t : Template) (source : Json) :
    t.withoutOutputs.project source = t.project source := by
  induction t generalizing source with
  | fields entries ih =>
      have hplaced : placements (entries.map entryWithoutOutputs) source =
          placements entries source := by
        rw [placements, placements, List.filterMap_map]
        apply List.filterMap_congr
        intro entry hentry
        rw [Function.comp_apply, target_entryWithoutOutputs,
          contribution?_entryWithoutOutputs (ih entry hentry)]
      rw [withoutOutputs, entriesWithoutOutputs_eq_map, project_fields, project_fields, hplaced]
  | paths items => rfl

theorem project_eq_of_withoutOutputs_eq {one other : Template}
    (h : one.withoutOutputs = other.withoutOutputs) (source : Json) :
    one.project source = other.project source := by
  rw [← project_withoutOutputs one, h, project_withoutOutputs]

end Template

/-! ### The template for issues -/

namespace Issue

open Template

/-- The template for issues in the legacy layout. -/
def legacyDocument : Json :=
  .obj [
    ("self", .str "self"),
    ("fields.project.name", .str "project_name"),
    ("fields.summary", .str "summary"),
    ("fields.description", .str "description"),
    ("fields.attachment", .obj [
      ("key", .str "attachment_self"),
      ("fields", .obj [("self", .str "self")])]),
    ("fields.comment.body", .str "comment_body"),
    ("fields.comment.comments", .obj [
      ("key", .str "comment_author_name"),
      ("fields", .obj [("author.name", .str "author_name"), ("body", .str "body")])]),
    ("fields.timetracking.timeSpent", .str "timetracking_timeSpent")]

/-- The text of the template for issues in the legacy layout. -/
def legacyTemplateText : String :=
  legacyDocument.pretty ++ "\n"

theorem ofText_templateText : ofText templateText = .ok template := by
  have hread := Json.read_pretty_line (keysDistinct_toJson template)
    (fun _ => (wholeNumbers_toJson template).recovers) (by decide)
  rw [templateText, ofText_of_read hread]
  rfl

theorem wholeNumbers_legacyDocument : legacyDocument.WholeNumbers := by
  simp [legacyDocument, Json.WholeNumbers, Json.madeOf_obj, Json.madeOf_str]

theorem read_legacyTemplateText : Json.read legacyTemplateText = .ok legacyDocument :=
  Json.read_pretty_line (by decide) (fun _ => wholeNumbers_legacyDocument.recovers) (by decide)

end Issue

namespace Template

open Json

/-- Templates that are the same but for the output keys of their reshaping entries project every
document alike. Among them are the template for issues and what is read of its legacy form. -/
theorem project_without_outputs :
    (∀ one other : Template, one.withoutOutputs = other.withoutOutputs →
      ∀ source, one.project source = other.project source) ∧
    ofText Issue.templateText = .ok Issue.template ∧
    ∃ legacy, legacyOfText Issue.legacyTemplateText = .ok legacy ∧
      ∀ source, legacy.project source = Issue.template.project source := by
  refine ⟨fun _ _ => project_eq_of_withoutOutputs_eq, Issue.ofText_templateText, ?_⟩
  obtain ⟨legacy, hlegacy, houtputs⟩ : ∃ legacy, ofLegacy Issue.legacyDocument = .ok legacy ∧
      legacy.withoutOutputs = Issue.template.withoutOutputs := ⟨_, rfl, rfl⟩
  refine ⟨legacy, ?_, project_eq_of_withoutOutputs_eq houtputs⟩
  rw [legacyOfText, Issue.read_legacyTemplateText]
  exact hlegacy

/-- An object entry around a group. -/
def objectTemplate : Template :=
  .fields [.object (.path (.ofSegments ["all"])) (.ofSegments ["list"])
    (.fields [.group (.path (.ofSegments ["one"])) (.ofSegments ["inner"])
      (.path (.ofSegments ["values"])) (.paths [.ofSegments ["x"]])])]

/-- A group around an object entry. -/
def groupTemplate : Template :=
  .fields [.group .level (.ofSegments ["list"]) (.path (.ofSegments ["all"]))
    (.fields [.object (.path (.ofSegments ["values"])) (.ofSegments ["inner"])
      (.paths [.ofSegments ["x"]])])]

def innerSource : Json :=
  .obj [("list", .arr [.obj [("inner", .arr [.obj [("x", .null)], .str "y"])], .bool true])]

theorem project_without_outputs_grouped :
    objectTemplate.withoutOutputs = groupTemplate.withoutOutputs ∧
    objectTemplate ≠ groupTemplate ∧
    objectTemplate.project innerSource = groupTemplate.project innerSource ∧
    groupTemplate.project innerSource =
      .obj [("all", .arr [.obj [("values", .arr [.arr [.null], .arr []])], .obj []])] := by
  have houtputs : objectTemplate.withoutOutputs = groupTemplate.withoutOutputs := by
    rfl
  exact ⟨houtputs, by decide, project_without_outputs.1 _ _ houtputs innerSource, rfl⟩

end Template

end Reshape
