import Reshape.Proofs.TemplateReading

/-!
Reading back what is written.

A template that is written is not always read back as itself. Entries with one output key are
written under one key, and of these the last one stays, in the place of the first; and the path
with the one segment `-` is read back as the level. `reread` is the template that is read back, and
`ofJson_toJson` says so for every sound template. It is the template itself when the output keys of
each level are distinct and none of them is that path (`reread_eq_self`).
-/

namespace Reshape.Template

/-- Puts an entry in the place of the one with its output key, or at the end if there is none. -/
def supersede (entry : Entry) : List Entry → List Entry
  | [] => [entry]
  | held :: rest =>
      if held.output = entry.output then entry :: rest else held :: supersede entry rest

mutual

/-- The template that is read where a template is written. -/
def reread : Template → Template
  | .fields entries => .fields (rereadEntries [] entries)
  | .paths items => .paths items

def rereadEntries (held : List Entry) : List Entry → List Entry
  | [] => held
  | entry :: rest => rereadEntries (supersede (rereadEntry entry) held) rest

def rereadEntry : Entry → Entry
  | .scalar output source => .scalar output.reread source
  | .object output source inner => .object output.reread source (reread inner)
  | .group output source groupKey inner =>
      .group output.reread source groupKey.reread (reread inner)

end

theorem output_rereadEntry (entry : Entry) : (rereadEntry entry).output = entry.output.reread := by
  cases entry <;> rfl

theorem source_rereadEntry (entry : Entry) : (rereadEntry entry).source = entry.source := by
  cases entry <;> rfl

theorem target_rereadEntry (entry : Entry) : (rereadEntry entry).target = entry.target.reread := by
  cases entry <;> rfl

theorem fields?_rereadEntry (entry : Entry) :
    (rereadEntry entry).fields? = entry.fields?.map reread := by
  cases entry <;> rfl

theorem mem_of_mem_supersede {entry other : Entry} {held : List Entry}
    (h : other ∈ supersede entry held) : other = entry ∨ other ∈ held := by
  induction held with
  | nil => exact Or.inl (List.mem_singleton.mp h)
  | cons first held ih =>
      rw [supersede] at h
      split at h
      · rcases List.mem_cons.mp h with rfl | h
        · exact Or.inl rfl
        · exact Or.inr (List.mem_cons_of_mem _ h)
      · rcases List.mem_cons.mp h with rfl | h
        · exact Or.inr (by simp)
        · rcases ih h with rfl | h
          · exact Or.inl rfl
          · exact Or.inr (List.mem_cons_of_mem _ h)

theorem countP_supersede_le (counted : Entry → Bool) (entry : Entry) (held : List Entry) :
    (supersede entry held).countP counted ≤ (entry :: held).countP counted := by
  induction held with
  | nil => exact Nat.le_refl _
  | cons first held ih =>
      rw [supersede]
      split
      · simp only [List.countP_cons]
        omega
      · simp only [List.countP_cons] at ih ⊢
        omega

theorem mem_of_mem_rereadEntries {entries held : List Entry} {other : Entry}
    (h : other ∈ rereadEntries held entries) :
    other ∈ held ∨ ∃ entry ∈ entries, other = rereadEntry entry := by
  induction entries generalizing held with
  | nil => exact Or.inl h
  | cons entry entries ih =>
      rw [rereadEntries] at h
      rcases ih h with h | ⟨later, hlater, rfl⟩
      · rcases mem_of_mem_supersede h with rfl | h
        · exact Or.inr ⟨entry, by simp, rfl⟩
        · exact Or.inl h
      · exact Or.inr ⟨later, List.mem_cons_of_mem _ hlater, rfl⟩

/-- Reading back adds no entries: of any sort there are at most as many as before. -/
theorem countP_rereadEntries_le (counted : Entry → Bool)
    (hcounted : ∀ entry, counted (rereadEntry entry) = counted entry) (held entries : List Entry) :
    (rereadEntries held entries).countP counted ≤
      held.countP counted + entries.countP counted := by
  induction entries generalizing held with
  | nil => exact Nat.le_refl _
  | cons entry entries ih =>
      have hheld := countP_supersede_le counted (rereadEntry entry) held
      have hrest := ih (supersede (rereadEntry entry) held)
      rw [List.countP_cons, hcounted] at hheld
      rw [rereadEntries, List.countP_cons]
      omega

theorem Sound.levelAlone_rereadEntries {entries : List Entry} (h : Sound entries) :
    LevelAlone (rereadEntries [] entries) := by
  intro hlength other hother
  have hle : (rereadEntries [] entries).countP (fun _ => true) ≤ 0 + entries.countP fun _ => true :=
    countP_rereadEntries_le _ (fun _ => rfl) [] entries
  rw [List.countP_true] at hle
  rcases mem_of_mem_rereadEntries hother with hnone | ⟨entry, hentry, rfl⟩
  · simp at hnone
  · rw [target_rereadEntry, h.readable entry hentry]
    exact h.alone (by omega) entry hentry

/-! ### Writing and reading -/

theorem output_of_readEntry {key : String} {output : Target} {node : Json} {entry : Entry}
    (h : readEntry key output node = .ok entry) : entry.output = output := by
  cases node with
  | str text =>
      obtain ⟨source, -, rfl⟩ := map_eq_ok.mp h
      rfl
  | obj properties =>
      obtain ⟨-, source, value, inner, -, -, -, hgroup⟩ := readEntry_obj_eq_ok.mp h
      rcases hgroup with ⟨-, rfl⟩ | ⟨groupKey, -, -, rfl⟩
      · rfl
      · rfl
  | _ => cases h

/-- To write a member is to put its entry among those that are read. -/
theorem readEntries_write {members : List (String × Json)} {held : List Entry} {node : Json}
    {entry : Entry} (hheld : readEntries members = .ok held)
    (hreread : entry.output.reread = entry.output)
    (hentry : readEntry entry.output.text entry.output node = .ok entry) :
    readEntries (Json.write entry.output.text node members) = .ok (supersede entry held) := by
  have houtput := Target.parse_eq_ok_iff_text.mpr ⟨rfl, hreread⟩
  induction members generalizing held with
  | nil =>
      cases hheld
      exact readEntries_cons_eq_ok.mpr ⟨entry.output, entry, [], houtput, hentry, rfl, rfl⟩
  | cons member members ih =>
      obtain ⟨key, first⟩ := member
      obtain ⟨output, other, others, hother, hread, hothers, rfl⟩ :=
        readEntries_cons_eq_ok.mp hheld
      obtain ⟨rfl, hotherReread⟩ := Target.parse_eq_ok_iff_text.mp hother
      have hkey : output.text = entry.output.text ↔ other.output = entry.output := by
        rw [output_of_readEntry hread, ← Target.reread_eq_iff, hotherReread, hreread]
      rw [Json.write, Json.amend, supersede]
      by_cases h : output.text = entry.output.text
      · rw [if_pos h, if_pos (hkey.mp h)]
        exact readEntries_cons_eq_ok.mpr
          ⟨entry.output, entry, others, by rw [h]; exact houtput, by rw [h]; exact hentry,
            hothers, rfl⟩
      · rw [if_neg h, if_neg fun heq => h (hkey.mpr heq)]
        exact readEntries_cons_eq_ok.mpr ⟨output, other, _, hother, hread, ih hothers, rfl⟩

theorem readEntries_writeEntries {members : List (String × Json)} {held entries : List Entry}
    (hheld : readEntries members = .ok held)
    (hentries : ∀ entry ∈ entries,
      readEntry entry.output.text entry.output.reread (writeNode entry) =
        .ok (rereadEntry entry)) :
    readEntries (writeEntries members entries) = .ok (rereadEntries held entries) := by
  induction entries generalizing members held with
  | nil => exact hheld
  | cons entry entries ih =>
      obtain ⟨hentry, hentries⟩ := List.forall_mem_cons.mp hentries
      rw [writeEntries, rereadEntries]
      refine ih ?_ hentries
      have htext : (rereadEntry entry).output.text = entry.output.text := by
        rw [output_rereadEntry, Target.text_reread]
      rw [← htext]
      refine readEntries_write hheld ?_ ?_
      · rw [output_rereadEntry, Target.reread_eq_iff, Target.text_reread]
      · rw [htext, output_rereadEntry]
        exact hentry

theorem readEntry_writeNode {entry : Entry} (htarget : entry.target.reread = entry.target)
    (hinner : ∀ inner, entry.fields? = some inner → ofJson (toJson inner) = .ok (reread inner)) :
    readEntry entry.output.text entry.output.reread (writeNode entry) =
      .ok (rereadEntry entry) := by
  cases entry with
  | scalar output source =>
      rw [writeNode, readEntry, Path.parseIn_eq_ok.mpr (Path.parse_text source)]
      rfl
  | object output source inner =>
      rw [writeNode]
      exact readEntry_obj_eq_ok.mpr ⟨rfl, source, toJson inner, reread inner, rfl, rfl,
        hinner inner rfl, Or.inl ⟨rfl, rfl⟩⟩
  | group output source groupKey inner =>
      have hkey : groupKey.reread = groupKey := htarget
      rw [writeNode]
      refine readEntry_obj_eq_ok.mpr ⟨rfl, source, toJson inner, reread inner, rfl, rfl,
        hinner inner rfl, Or.inr ⟨groupKey, rfl, hkey, ?_⟩⟩
      rw [rereadEntry, hkey]
      rfl

/-- What is written of a sound template is read back. -/
theorem ofJson_toJson {t : Template} (h : EveryLevel Sound t) :
    ofJson (toJson t) = .ok (reread t) := by
  induction h with
  | fields hsound _ ih =>
      rw [toJson, reread]
      refine ofJson_obj_eq_ok.mpr ⟨_, ?_, hsound.levelAlone_rereadEntries, rfl⟩
      apply readEntries_writeEntries rfl
      intro entry hentry
      exact readEntry_writeNode (hsound.readable entry hentry) (ih entry hentry)
  | paths items =>
      rw [toJson, ofJson, readPaths_eq_ok.mpr rfl]
      rfl

/-! ### Templates that are read back as they are -/

/-- No two entries of a level are written under one key. -/
def OutputsDistinct (entries : List Entry) : Prop :=
  (entries.map fun entry => entry.output.text).Nodup

instance (entries : List Entry) : Decidable (OutputsDistinct entries) :=
  inferInstanceAs (Decidable (entries.map _).Nodup)

theorem supersede_of_not_mem {entry : Entry} {held : List Entry}
    (h : entry.output ∉ held.map Entry.output) : supersede entry held = held ++ [entry] := by
  induction held with
  | nil => rfl
  | cons first held ih =>
      have hfirst : first.output ≠ entry.output := fun heq => h (by simp [heq])
      rw [supersede, if_neg hfirst, ih fun hmem => h (by simp [hmem])]
      rfl

theorem rereadEntries_of_nodup {held entries : List Entry}
    (h : (held.map Entry.output ++ entries.map fun entry => entry.output.reread).Nodup) :
    rereadEntries held entries = held ++ entries.map rereadEntry := by
  induction entries generalizing held with
  | nil => simp [rereadEntries]
  | cons entry entries ih =>
      have habsent : (rereadEntry entry).output ∉ held.map Entry.output := by
        rw [output_rereadEntry]
        exact Json.not_mem_of_nodup_append_cons h
      rw [rereadEntries, supersede_of_not_mem habsent, ih]
      · simp
      · simpa [output_rereadEntry] using h

theorem OutputsDistinct.rereadEntries {entries : List Entry} (h : OutputsDistinct entries) :
    rereadEntries [] entries = entries.map rereadEntry := by
  apply rereadEntries_of_nodup
  rw [OutputsDistinct, List.nodup_iff_pairwise_ne, List.pairwise_map] at h
  rw [List.map_nil, List.nil_append, List.nodup_iff_pairwise_ne, List.pairwise_map]
  exact h.imp fun hne heq => hne (Target.reread_eq_iff.mp heq)

/-- The entries of a level are written apart and each under a key that is read back. -/
structure Lossless (entries : List Entry) : Prop where
  distinct : OutputsDistinct entries
  readable : ∀ entry ∈ entries, entry.output.reread = entry.output

theorem rereadEntry_eq_self {entry : Entry} (houtput : entry.output.reread = entry.output)
    (htarget : entry.target.reread = entry.target)
    (hinner : ∀ inner, entry.fields? = some inner → reread inner = inner) :
    rereadEntry entry = entry := by
  cases entry with
  | scalar output source => exact congrArg (Entry.scalar · source) houtput
  | object output source inner =>
      have houtput : output.reread = output := houtput
      rw [rereadEntry, houtput, hinner inner rfl]
  | group output source groupKey inner =>
      have houtput : output.reread = output := houtput
      have hkey : groupKey.reread = groupKey := htarget
      rw [rereadEntry, houtput, hkey, hinner inner rfl]

theorem reread_eq_self {t : Template} (hsound : EveryLevel Sound t)
    (hlossless : EveryLevel Lossless t) : reread t = t := by
  induction hsound with
  | @fields entries hlevel _ ih =>
      obtain ⟨hwritten, hinside⟩ := everyLevel_fields.mp hlossless
      rw [reread, hwritten.distinct.rereadEntries]
      have hself : ∀ entry ∈ entries, rereadEntry entry = entry := by
        intro entry hentry
        exact rereadEntry_eq_self (hwritten.readable entry hentry) (hlevel.readable entry hentry)
          fun inner hinner => ih entry hentry inner hinner (hinside entry hentry inner hinner)
      exact congrArg Template.fields ((List.map_congr_left hself).trans (List.map_id entries))
  | paths items => rfl

/-! ### Entries that are overwritten -/

theorem exists_overwritten {entries : List Entry} (h : ¬ OutputsDistinct entries) :
    ∃ before entry after, entries = before ++ entry :: after ∧
      ∃ later ∈ after, later.output.text = entry.output.text := by
  induction entries with
  | nil => exact (h List.nodup_nil).elim
  | cons first entries ih =>
      by_cases hfirst : first.output.text ∈ entries.map fun entry => entry.output.text
      · exact ⟨[], first, entries, rfl, List.mem_map.mp hfirst⟩
      · have hrest : ¬ OutputsDistinct entries :=
          fun hrest => h (List.nodup_cons.mpr ⟨hfirst, hrest⟩)
        obtain ⟨before, entry, after, rfl, hlater⟩ := ih hrest
        exact ⟨first :: before, entry, after, rfl, hlater⟩

theorem find?_supersede (entry : Entry) (held : List Entry) (output : Target) :
    (supersede entry held).find? (·.output = output) =
      if entry.output = output then some entry else held.find? (·.output = output) := by
  induction held with
  | nil =>
      by_cases hentry : entry.output = output
      · simp [supersede, hentry]
      · simp [supersede, hentry]
  | cons first held ih =>
      rw [supersede]
      by_cases hfirst : first.output = entry.output
      · by_cases hentry : entry.output = output
        · simp [hfirst, hentry]
        · simp [hfirst, hentry]
      · rw [if_neg hfirst]
        by_cases houtput : first.output = output
        · have hentry : entry.output ≠ output := fun heq => hfirst (houtput.trans heq.symm)
          simp [houtput, hentry]
        · simp [houtput, ih]

section

variable (counted : Entry → Bool)

theorem countP_supersede_lt {entry lost : Entry} {held : List Entry}
    (hlost : held.find? (·.output = entry.output) = some lost) (hcounted : counted lost) :
    (supersede entry held).countP counted < (entry :: held).countP counted := by
  induction held with
  | nil => cases hlost
  | cons first held ih =>
      rw [supersede]
      by_cases hfirst : first.output = entry.output
      · have hfound : first = lost := by simpa [hfirst] using hlost
        rw [if_pos hfirst, hfound]
        simp only [List.countP_cons, hcounted, if_true]
        omega
      · have hrest := ih (by simpa [hfirst] using hlost)
        rw [if_neg hfirst]
        simp only [List.countP_cons] at hrest ⊢
        omega

variable (hcounted : ∀ entry, counted (rereadEntry entry) = counted entry)

include hcounted

theorem countP_rereadEntries_lt_of_find? {held entries : List Entry} {lost later : Entry}
    (hlost : held.find? (·.output = later.output.reread) = some lost) (hcountedLost : counted lost)
    (hlater : later ∈ entries) :
    (rereadEntries held entries).countP counted <
      held.countP counted + entries.countP counted := by
  induction entries generalizing held with
  | nil => cases hlater
  | cons entry entries ih =>
      have hheld := countP_supersede_le counted (rereadEntry entry) held
      have hrest :=
        countP_rereadEntries_le counted hcounted (supersede (rereadEntry entry) held) entries
      rw [rereadEntries, List.countP_cons]
      by_cases houtput : entry.output.reread = later.output.reread
      · rw [← houtput, ← output_rereadEntry] at hlost
        have hlt := countP_supersede_lt counted hlost hcountedLost
        rw [List.countP_cons, hcounted] at hlt
        omega
      · have hmem : later ∈ entries := by
          rcases List.mem_cons.mp hlater with rfl | hmem
          · exact (houtput rfl).elim
          · exact hmem
        have hkept : (supersede (rereadEntry entry) held).find?
            (·.output = later.output.reread) = some lost := by
          rw [find?_supersede, output_rereadEntry, if_neg houtput]
          exact hlost
        have hlt := ih hkept hmem
        rw [List.countP_cons, hcounted] at hheld
        omega

/-- Where an entry is overwritten, there are fewer of its sort after reading back. -/
theorem countP_rereadEntries_lt {before after held : List Entry} {entry later : Entry}
    (hlater : later ∈ after) (htext : later.output.text = entry.output.text)
    (hentry : counted entry) :
    (rereadEntries held (before ++ entry :: after)).countP counted <
      held.countP counted + (before ++ entry :: after).countP counted := by
  induction before generalizing held with
  | nil =>
      have hheld := countP_supersede_le counted (rereadEntry entry) held
      have hlost : (supersede (rereadEntry entry) held).find?
          (·.output = later.output.reread) = some (rereadEntry entry) := by
        rw [find?_supersede, output_rereadEntry, if_pos (Target.reread_eq_iff.mpr htext.symm)]
      have hlt := countP_rereadEntries_lt_of_find? counted hcounted hlost
        (by rw [hcounted, hentry]) hlater
      rw [List.nil_append, rereadEntries, List.countP_cons]
      rw [List.countP_cons, hcounted] at hheld
      omega
  | cons first before ih =>
      have hheld := countP_supersede_le counted (rereadEntry first) held
      have hlt := @ih (supersede (rereadEntry first) held)
      rw [List.countP_cons, hcounted] at hheld
      rw [List.cons_append, rereadEntries, List.countP_cons]
      omega

end

end Reshape.Template
