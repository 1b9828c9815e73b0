import Reshape.Proofs.CanonicalRoundTrip
import Reshape.Proofs.LegacyConversion
import Reshape.Proofs.TextRoundTrip
import Reshape.Template.Text

/-!
Writing the templates that were read.

What is written of a template can be read again, as a document and as a text: it is nested no
deeper than the document the template was read from. It is read as the same template when the
entries of each level are written under different keys and no group under the text of the level,
and only then. A group in the legacy layout has its source path for an output key, so this is where
both exceptions come from.
-/

namespace Reshape

/-- Whether an entry is a group whose output key is the path with the one segment `-`. -/
def Entry.isDashGroup : Entry → Bool
  | .group (.path p) _ _ _ => p.segments == ["-"]
  | _ => false

namespace Template

/-- The entries of a level are written under different keys, and no group under `-` by a path. -/
structure WrittenApart (entries : List Entry) : Prop where
  distinct : OutputsDistinct entries
  noDash : ∀ entry ∈ entries, entry.isDashGroup = false

instance (entries : List Entry) : Decidable (WrittenApart entries) :=
  decidable_of_iff
    (OutputsDistinct entries ∧ ∀ entry ∈ entries, entry.isDashGroup = false)
    ⟨fun ⟨distinct, noDash⟩ => ⟨distinct, noDash⟩, fun ⟨distinct, noDash⟩ => ⟨distinct, noDash⟩⟩

theorem output_reread_iff {entry : Entry} (htarget : entry.target.reread = entry.target) :
    entry.output.reread = entry.output ↔ entry.isDashGroup = false := by
  cases entry with
  | scalar output source => exact iff_of_true htarget rfl
  | object output source inner => exact iff_of_true htarget rfl
  | group output source groupKey inner =>
      cases output with
      | path p =>
          rw [Entry.isDashGroup, beq_eq_false_iff_ne]
          exact Target.reread_path_eq_self_iff
      | level => exact iff_of_true rfl rfl

theorem Sound.lossless_iff {entries : List Entry} (h : Sound entries) :
    Lossless entries ↔ WrittenApart entries := by
  have houtput : (∀ entry ∈ entries, entry.output.reread = entry.output) ↔
      ∀ entry ∈ entries, entry.isDashGroup = false :=
    forall₂_congr fun entry hentry => output_reread_iff (h.readable entry hentry)
  constructor
  · rintro ⟨hdistinct, hreadable⟩
    exact ⟨hdistinct, houtput.mp hreadable⟩
  · rintro ⟨hdistinct, hdash⟩
    exact ⟨hdistinct, houtput.mpr hdash⟩

theorem outputsDistinct_of_rereadEntries {entries : List Entry}
    (h : rereadEntries [] entries = entries) : OutputsDistinct entries := by
  by_contra hdistinct
  obtain ⟨before, entry, after, hentries, later, hlater, htext⟩ := exists_overwritten hdistinct
  have hlt : (rereadEntries [] entries).countP (fun _ => true) <
      0 + entries.countP fun _ => true := by
    rw [hentries]
    exact countP_rereadEntries_lt _ (fun _ => rfl) hlater htext rfl
  rw [h, Nat.zero_add] at hlt
  exact Nat.lt_irrefl _ hlt

/-- A template is read back as it is only if the entries of each level are. -/
theorem everyLevel_lossless_of_reread {t : Template} (h : reread t = t) :
    EveryLevel Lossless t := by
  induction t with
  | fields entries ih =>
      have hentries : rereadEntries [] entries = entries := Template.fields.inj h
      have hdistinct := outputsDistinct_of_rereadEntries hentries
      rw [hdistinct.rereadEntries] at hentries
      have hself : ∀ entry ∈ entries, rereadEntry entry = entry :=
        List.map_inj_left.mp (hentries.trans (List.map_id entries).symm)
      refine .fields ⟨hdistinct, ?_⟩ ?_
      · intro entry hentry
        rw [← output_rereadEntry, hself entry hentry]
      · intro entry hentry inner hinner
        apply ih entry hentry inner hinner
        have hfields := fields?_rereadEntry entry
        rw [hself entry hentry, hinner] at hfields
        exact (Option.some.inj hfields).symm
  | paths items => exact .paths items

theorem reread_eq_self_iff {t : Template} (hsound : EveryLevel Sound t) :
    reread t = t ↔ EveryLevel WrittenApart t := by
  rw [← hsound.congr fun _ hlevel => hlevel.lossless_iff]
  exact ⟨everyLevel_lossless_of_reread, reread_eq_self hsound⟩

/-! ### What is written -/

theorem forall_mem_writeEntries (holds : Json → Prop) {held : List (String × Json)}
    {entries : List Entry} (hheld : ∀ member ∈ held, holds member.2)
    (hentries : ∀ entry ∈ entries, holds (writeNode entry)) :
    ∀ member ∈ writeEntries held entries, holds member.2 := by
  induction entries generalizing held with
  | nil => exact hheld
  | cons entry entries ih =>
      obtain ⟨hentry, hentries⟩ := List.forall_mem_cons.mp hentries
      exact ih (Json.forall_mem_amend hentry hheld) hentries

theorem nodup_keys_writeEntries (held : List (String × Json)) (entries : List Entry)
    (hheld : (held.map Prod.fst).Nodup) : ((writeEntries held entries).map Prod.fst).Nodup := by
  induction entries generalizing held with
  | nil => exact hheld
  | cons entry entries ih => exact ih _ (Json.nodup_keys_amend _ _ hheld)

/-- What is written of a template is made of texts, sequences, and mappings with distinct keys. -/
theorem toJson_induction (holds : Json → Prop) (str : ∀ text, holds (.str text))
    (arr : ∀ items, (∀ item ∈ items, holds item) → holds (.arr items))
    (obj : ∀ members : List (String × Json), (members.map Prod.fst).Nodup →
      (∀ member ∈ members, holds member.2) → holds (.obj members)) (t : Template) :
    holds (toJson t) := by
  induction t with
  | fields entries ih =>
      rw [toJson]
      apply obj _ (nodup_keys_writeEntries [] entries List.nodup_nil)
      apply forall_mem_writeEntries holds (by simp)
      intro entry hentry
      cases entry with
      | scalar output source => exact str source.text
      | object output source inner =>
          have hkeys : [sourceProperty, fieldsProperty].Nodup := by
            decide
          exact obj _ hkeys (by simp [str, ih _ hentry inner rfl])
      | group output source groupKey inner =>
          have hkeys : [sourceProperty, groupProperty, fieldsProperty].Nodup := by
            decide
          exact obj _ hkeys (by simp [str, ih _ hentry inner rfl])
  | paths items =>
      rw [toJson]
      apply arr
      simp [str]

theorem keysDistinct_toJson (t : Template) : (toJson t).keysDistinct := by
  refine toJson_induction (fun written => written.keysDistinct) ?str ?arr ?obj t
  case str => exact fun _ => rfl
  case arr => exact fun _ => Json.keysDistinct_arr.mpr
  case obj => exact fun _ hkeys heach => Json.keysDistinct_obj.mpr ⟨hkeys, heach⟩

theorem wholeNumbers_toJson (t : Template) : (toJson t).WholeNumbers := by
  refine toJson_induction Json.WholeNumbers ?str ?arr ?obj t
  case str => exact fun _ => Json.madeOf_str.mpr (by simp)
  case arr => exact fun _ => Json.madeOf_arr.mpr
  case obj => exact fun _ _ heach => Json.madeOf_obj.mpr ⟨by simp, heach⟩

/-! ### Depth -/

theorem depth_writeNode_le {entry : Entry} {inner : Template} {properties : List (String × Json)}
    {name : String} {value : Json} (hentry : entry.fields? = some inner)
    (hvalue : properties.lookup name = some value)
    (hinner : (toJson inner).depth ≤ value.depth) :
    (writeNode entry).depth ≤ Json.depth (.obj properties) := by
  have hlt : value.depth < Json.depth (.obj properties) :=
    Json.depth_lt_of_mem (Json.mem_of_lookup hvalue)
  obtain ⟨limit, hlimit⟩ := Nat.exists_eq_add_one_of_ne_zero (Nat.ne_zero_of_lt hlt)
  have hle : (toJson inner).depth ≤ limit := by
    omega
  rw [hlimit]
  cases entry with
  | scalar output source => cases hentry
  | object output source inner =>
      cases hentry
      rw [writeNode, Json.depth_obj_le]
      simp [Json.depth, hle]
  | group output source groupKey inner =>
      cases hentry
      rw [writeNode, Json.depth_obj_le]
      simp [Json.depth, hle]

theorem depth_toJson_fields_le {members : List (String × Json)} {entries : List Entry}
    (h : List.Forall₂ (fun member entry => (writeNode entry).depth ≤ member.2.depth)
      members entries) : (toJson (.fields entries)).depth ≤ Json.depth (.obj members) := by
  have hlt : ∀ entry ∈ entries, (writeNode entry).depth < Json.depth (.obj members) := by
    have hmembers : ∀ member ∈ members, member.2.depth < Json.depth (.obj members) :=
      fun _ => Json.depth_lt_of_mem
    exact forall_of_forall₂ (fun _ _ hboth => Nat.lt_of_le_of_lt hboth.2 hboth.1)
      ((List.forall₂_and_left _ _).mpr ⟨hmembers, h⟩)
  obtain ⟨limit, hlimit⟩ : ∃ limit, Json.depth (.obj members) = limit + 1 :=
    ⟨_, Json.depth.eq_def _⟩
  rw [hlimit] at hlt ⊢
  rw [toJson, Json.depth_obj_le]
  exact forall_mem_writeEntries (fun written => written.depth ≤ limit) (by simp)
    fun entry hentry => Nat.le_of_lt_succ (hlt entry hentry)

theorem depth_toJson_le_of_ofJson {value : Json} {t : Template} (h : ofJson value = .ok t) :
    (toJson t).depth ≤ value.depth := by
  refine ofJson_induction (fun value t => (toJson t).depth ≤ value.depth)
    (fun _ node entry => (writeNode entry).depth ≤ node.depth)
    ?paths ?fields ?scalar ?object ?group h
  case paths =>
    intro items
    rw [toJson]
  case fields =>
    intro members entries hentries _
    exact depth_toJson_fields_le hentries
  case scalar =>
    intro output source _
    exact Nat.le_refl _
  case object =>
    intro output source properties value inner _ _ _ hfields _ hinner
    exact depth_writeNode_le rfl hfields hinner
  case group =>
    intro output source groupKey properties value inner _ _ _ _ hfields _ hinner
    exact depth_writeNode_le rfl hfields hinner

theorem depth_toJson_le_of_ofLegacy {value : Json} {t : Template} (h : ofLegacy value = .ok t) :
    (toJson t).depth ≤ value.depth := by
  refine ofLegacy_induction (fun value t => (toJson t).depth ≤ value.depth)
    (fun _ node entry => (writeNode entry).depth ≤ node.depth) ?paths ?fields ?scalar ?group h
  case paths =>
    intro items
    rw [toJson]
  case fields =>
    intro members entries hentries _
    exact depth_toJson_fields_le hentries
  case scalar =>
    intro output source _
    exact Nat.zero_le _
  case group =>
    intro source groupKey properties value inner _ hfields _ hinner
    exact depth_writeNode_le rfl hfields hinner

/-! ### Texts -/

theorem ofText_of_read {text : String} {value : Json} (h : Json.read text = .ok value) :
    ofText text = ofJson value := by
  rw [ofText, h]
  rfl

/-- A template that was read is read again from what is written of it. It is the same template
just when the entries of each level are written apart. What is written is no deeper than what was
read, so it is read from its text as well if the first document was. -/
theorem ofJson_toJson_lossless {value : Json} {t : Template}
    (h : ofJson value = .ok t ∨ ofLegacy value = .ok t) :
    ∃ t', ofJson (toJson t) = .ok t' ∧ (t' = t ↔ EveryLevel WrittenApart t) ∧
      (toJson t).depth ≤ value.depth ∧
      ∀ text, Json.read text = .ok value →
        ofText (toJson t).compact = .ok t' ∧ ofText (toJson t).pretty = .ok t' := by
  have hsound : EveryLevel Sound t := by
    rcases h with h | h
    · exact everyLevel_sound_of_ofJson h
    · exact everyLevel_sound_of_ofLegacy h
  have hdepth : (toJson t).depth ≤ value.depth := by
    rcases h with h | h
    · exact depth_toJson_le_of_ofJson h
    · exact depth_toJson_le_of_ofLegacy h
  have hread := ofJson_toJson hsound
  refine ⟨reread t, hread, reread_eq_self_iff hsound, hdepth, ?_⟩
  intro text htext
  have hkeys := keysDistinct_toJson t
  have hnumbers : ∀ number, Json.Occurs (.num number) (toJson t) → Json.Recovers .scaled number :=
    fun _ => (wholeNumbers_toJson t).recovers
  have hlimit := Nat.le_trans hdepth (Json.depth_le_of_read htext)
  constructor
  · rw [ofText_of_read (Json.read_compact hkeys hnumbers hlimit), hread]
  · rw [ofText_of_read (Json.read_pretty hkeys hnumbers hlimit), hread]

def dashedText : String :=
  "\x7b\"-\":\x7b\"key\":\"a.b\",\"fields\":[\"x\"]\x7d\x7d"

def dashedDocument : Json :=
  .obj [("-", .obj [("key", .str "a.b"), ("fields", .arr [.str "x"])])]

def dashedTemplate : Template :=
  .fields [.group (.path (.ofSegments ["-"])) (.ofSegments ["-"]) (.path (.ofSegments ["a", "b"]))
    (.paths [.ofSegments ["x"]])]

theorem ofJson_toJson_lossless_dashed :
    (ofLegacy dashedDocument = .ok dashedTemplate ∧
      ∃ t', ofText (toJson dashedTemplate).pretty = .ok t' ∧ t' ≠ dashedTemplate) ∧
    ofLegacy collidingDocument = .ok collidingTemplate ∧
      (∃ t', ofJson (toJson collidingTemplate) = .ok t' ∧ t' ≠ collidingTemplate) ∧
    ofJson reorderedDocument = .ok reorderedTemplate ∧
      ofJson (toJson reorderedTemplate) = .ok reorderedTemplate := by
  have hdashed : ofLegacy dashedDocument = .ok dashedTemplate := by
    rfl
  have hcolliding : ofLegacy collidingDocument = .ok collidingTemplate := by
    rfl
  have hreordered : ofJson reorderedDocument = .ok reorderedTemplate := by
    rfl
  have htext : Json.read dashedText = .ok dashedDocument := by
    rfl
  obtain ⟨dashed, -, hdash, -, htexts⟩ := ofJson_toJson_lossless (.inr hdashed)
  obtain ⟨kept, hkept, hcollision, -⟩ := ofJson_toJson_lossless (.inr hcolliding)
  obtain ⟨same, hsame, hlossless, -⟩ := ofJson_toJson_lossless (.inl hreordered)
  obtain rfl := hlossless.mpr (by decide)
  exact ⟨⟨hdashed, dashed, (htexts _ htext).2, fun heq => absurd (hdash.mp heq) (by decide)⟩,
    hcolliding, ⟨kept, hkept, fun heq => absurd (hcollision.mp heq) (by decide)⟩, hreordered, hsame⟩

end Template

end Reshape
