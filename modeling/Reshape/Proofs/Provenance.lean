import Reshape.Proofs.LevelProjection

/-!
Where the parts of a result come from.

A projection makes up nothing. What it puts into a result are values of the source, and it wraps
them in mappings whose keys are written in the template; merging moves all that about but adds
nothing. So the scalars of a result are scalars of the source, and each of its keys is a key of the
source or stands in a target of the template, at some depth.
-/

namespace Reshape.Template

open Json

/-- A key is a segment of the target of some entry, at any depth of a template. -/
def Names (t : Template) (key : String) : Prop :=
  ∃ entries, LevelOf (.fields entries) t ∧ ∃ entry ∈ entries, key ∈ entry.target.keys

/-- Each scalar of a result occurs in the source, and each key of a result is named by the template
or occurs in the source. -/
theorem project_provenance (t : Template) (source : Json) :
    (∀ scalar : Json, scalar.kind ≠ .sequence → scalar.kind ≠ .mapping →
      Occurs scalar (t.project source) → Occurs scalar source) ∧
    ∀ key, HasKey key (t.project source) → t.Names key ∨ HasKey key source := by
  have hsource : MadeOf (Occurs · source) (fun key => t.Names key ∨ HasKey key source) source :=
    ⟨fun _ _ _ hpart => hpart, fun _ => .inr⟩
  have hkeys : EveryLevel (fun entries => ∀ entry ∈ entries, ∀ key ∈ entry.target.keys,
      ∀ named ∈ [key], t.Names named ∨ HasKey named source) t := by
    apply everyLevel_of_levelOf
    intro entries hlevel entry hentry key hkey named hnamed
    rw [List.mem_singleton.mp hnamed]
    exact .inl ⟨entries, hlevel, entry, hentry, hkey⟩
  have hresult := holds_project byParts_madeOf hkeys hsource
  exact ⟨hresult.scalar, hresult.key⟩

/-- Two entries for one target, the second of which reshapes items with an entry for the level. -/
def overlappingTemplate : Template :=
  .fields [.scalar (.path (.ofSegments ["all", "list"])) (.ofSegments ["first"]),
    .group .level (.ofSegments ["second"]) (.path (.ofSegments ["all", "list"]))
      (.fields [.scalar .level (.ofSegments ["x"])])]

def overlappingSource : Json :=
  .obj [("first", .arr [.bool true]),
    ("second", .arr [.obj [("x", .obj [("held", .str "deep")])], .null])]

theorem project_provenance_overlapping :
    overlappingTemplate.project overlappingSource = .obj [("all", .obj [("list",
      .arr [.bool true, .obj [("held", .str "deep")], .obj []])])] ∧
    Occurs (.str "deep") (overlappingTemplate.project overlappingSource) ∧
    Occurs (.str "deep") overlappingSource ∧
    HasKey "list" (overlappingTemplate.project overlappingSource) ∧
    (overlappingTemplate.Names "list" ∨ HasKey "list" overlappingSource) := by
  obtain ⟨hscalars, hkeys⟩ := project_provenance overlappingTemplate overlappingSource
  have hresult : overlappingTemplate.project overlappingSource = .obj [("all", .obj [("list",
      .arr [.bool true, .obj [("held", .str "deep")], .obj []])])] := by
    rfl
  have hscalar : Occurs (.str "deep") (overlappingTemplate.project overlappingSource) := by
    rw [hresult]
    exact .member (List.mem_cons_self ..) (.member (List.mem_cons_self ..)
      (.item (List.mem_cons_of_mem _ (List.mem_cons_self ..))
        (.member (List.mem_cons_self ..) .whole)))
  have hkey : HasKey "list" (overlappingTemplate.project overlappingSource) := by
    rw [hresult]
    exact ⟨_, .member (List.mem_cons_self ..) .whole, by simp⟩
  exact ⟨hresult, hscalar, hscalars _ (by simp [kind]) (by simp [kind]) hscalar, hkey,
    hkeys _ hkey⟩

end Reshape.Template
