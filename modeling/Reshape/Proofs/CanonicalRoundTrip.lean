import Reshape.Proofs.Rereading

/-!
The canonical layout, read and written.

A document without repeated keys that is read as a template is written again just as it was, but
that the properties of a node may stand in another order; and the template that is read from what
is written is the same.
-/

namespace Reshape.Template

open Json

mutual

/-- Two documents lay out a template in the same way: they have the same paths, or the same keys
in the same order with nodes that are alike. -/
inductive SameLayout : Json → Json → Prop
  | paths (items : List Json) : SameLayout (.arr items) (.arr items)
  | entries {members others : List (String × Json)} (same : SameEntries members others) :
      SameLayout (.obj members) (.obj others)

inductive SameEntries : List (String × Json) → List (String × Json) → Prop
  | nil : SameEntries [] []
  | cons {key : String} {node other : Json} {members others : List (String × Json)}
      (head : SameNode node other) (tail : SameEntries members others) :
      SameEntries ((key, node) :: members) ((key, other) :: others)

/-- Two nodes are alike: the same text, or the same properties in any order, where the `fields`
are laid out in the same way and all other properties are equal. -/
inductive SameNode : Json → Json → Prop
  | scalar (text : String) : SameNode (.str text) (.str text)
  | properties {properties others : List (String × Json)} {value other : Json}
      (keys : (properties.map Prod.fst).Perm (others.map Prod.fst))
      (plain : ∀ name ≠ fieldsProperty, properties.lookup name = others.lookup name)
      (found : properties.lookup fieldsProperty = some value)
      (foundOther : others.lookup fieldsProperty = some other)
      (fields : SameLayout value other) : SameNode (.obj properties) (.obj others)

end

theorem perm_keys_of_lookup {members others : List (String × Json)}
    (hmembers : (members.map Prod.fst).Nodup) (hothers : (others.map Prod.fst).Nodup)
    (h : ∀ key, (members.lookup key).isSome = (others.lookup key).isSome) :
    (members.map Prod.fst).Perm (others.map Prod.fst) := by
  apply (List.perm_ext_iff_of_nodup hmembers hothers).mpr
  intro key
  rw [mem_keys_iff, mem_keys_iff, h]

theorem lookup_eq_none_of_unknown {properties : List (String × Json)}
    (h : unknownProperty? properties = none) {name : String}
    (hname : name ∉ [sourceProperty, fieldsProperty, groupProperty]) :
    properties.lookup name = none := by
  apply Option.not_isSome_iff_eq_none.mp
  intro hfound
  have hknown := List.find?_eq_none.mp h name (mem_keys_iff.mpr hfound)
  exact hknown (by simpa using hname)

/-- Nodes with no unknown property are alike when the known ones are. -/
theorem SameNode.of_known {properties others : List (String × Json)}
    (hproperties : (properties.map Prod.fst).Nodup) (hothers : (others.map Prod.fst).Nodup)
    (hknown : unknownProperty? properties = none) (hknownOther : unknownProperty? others = none)
    (hsource : properties.lookup sourceProperty = others.lookup sourceProperty)
    (hgroup : properties.lookup groupProperty = others.lookup groupProperty)
    {value other : Json} (hvalue : properties.lookup fieldsProperty = some value)
    (hother : others.lookup fieldsProperty = some other) (hfields : SameLayout value other) :
    SameNode (.obj properties) (.obj others) := by
  have plain : ∀ name ≠ fieldsProperty, properties.lookup name = others.lookup name := by
    intro name hname
    by_cases hsourceName : name = sourceProperty
    · rw [hsourceName, hsource]
    · by_cases hgroupName : name = groupProperty
      · rw [hgroupName, hgroup]
      · have hunknown : name ∉ [sourceProperty, fieldsProperty, groupProperty] := by
          simp [hsourceName, hname, hgroupName]
        rw [lookup_eq_none_of_unknown hknown hunknown,
          lookup_eq_none_of_unknown hknownOther hunknown]
  refine .properties (perm_keys_of_lookup hproperties hothers ?_) plain hvalue hother hfields
  intro key
  by_cases hkey : key = fieldsProperty
  · rw [hkey, hvalue, hother]
    rfl
  · rw [plain key hkey]

theorem sameNode_object {output : Target} {source : Path} {inner : Template}
    {properties : List (String × Json)} {value : Json}
    (hnodup : (properties.map Prod.fst).Nodup) (hknown : unknownProperty? properties = none)
    (hsource : properties.lookup sourceProperty = some (.str source.text))
    (hfields : properties.lookup fieldsProperty = some value)
    (hgroup : properties.lookup groupProperty = none) (hinner : SameLayout (toJson inner) value) :
    SameNode (writeNode (.object output source inner)) (.obj properties) := by
  have hkeys : [sourceProperty, fieldsProperty].Nodup := by
    decide
  rw [writeNode]
  exact SameNode.of_known hkeys hnodup rfl hknown hsource.symm hgroup.symm rfl hfields hinner

theorem sameNode_group {output : Target} {source : Path} {groupKey : Target} {inner : Template}
    {properties : List (String × Json)} {value : Json}
    (hnodup : (properties.map Prod.fst).Nodup) (hknown : unknownProperty? properties = none)
    (hsource : properties.lookup sourceProperty = some (.str source.text))
    (hfields : properties.lookup fieldsProperty = some value)
    (hgroup : properties.lookup groupProperty = some (.str groupKey.text))
    (hinner : SameLayout (toJson inner) value) :
    SameNode (writeNode (.group output source groupKey inner)) (.obj properties) := by
  have hkeys : [sourceProperty, groupProperty, fieldsProperty].Nodup := by
    decide
  rw [writeNode]
  exact SameNode.of_known hkeys hnodup rfl hknown hsource.symm hgroup.symm rfl hfields hinner

theorem writeEntries_of_nodup {members : List (String × Json)} {entries : List Entry}
    (h : (members.map Prod.fst ++ entries.map fun entry => entry.output.text).Nodup) :
    writeEntries members entries =
      members ++ entries.map fun entry => (entry.output.text, writeNode entry) := by
  induction entries generalizing members with
  | nil => simp [writeEntries]
  | cons entry entries ih =>
      have habsent : entry.output.text ∉ members.map Prod.fst :=
        not_mem_of_nodup_append_cons h
      rw [writeEntries, Json.write, amend_of_not_mem _ habsent, ih]
      · simp
      · simpa using h

/-- What is known of a template read from a document without repeated keys. -/
structure RoundTrip (value : Json) (t : Template) : Prop where
  lossless : EveryLevel Lossless t
  same : SameLayout (toJson t) value

structure RoundTripEntry (key : String) (node : Json) (entry : Entry) : Prop where
  text : entry.output.text = key
  readable : entry.output.reread = entry.output
  inside : ∀ inner, entry.fields? = some inner → EveryLevel Lossless inner
  same : SameNode (writeNode entry) node

theorem texts_of_roundTripEntries {members : List (String × Json)} {entries : List Entry}
    (h : List.Forall₂ (fun member entry => RoundTripEntry member.1 member.2 entry)
      members entries) :
    entries.map (fun entry => entry.output.text) = members.map Prod.fst := by
  induction h with
  | nil => rfl
  | cons hentry _ ih => rw [List.map_cons, List.map_cons, hentry.text, ih]

theorem sameEntries_of_roundTripEntries {members : List (String × Json)} {entries : List Entry}
    (h : List.Forall₂ (fun member entry => RoundTripEntry member.1 member.2 entry)
      members entries) :
    SameEntries (entries.map fun entry => (entry.output.text, writeNode entry)) members := by
  induction h with
  | nil => exact .nil
  | @cons member entry members entries hentry _ ih =>
      obtain ⟨key, node⟩ := member
      rw [List.map_cons, hentry.text]
      exact .cons hentry.same ih

theorem RoundTrip.fields {members : List (String × Json)} {entries : List Entry}
    (hnodup : (members.map Prod.fst).Nodup)
    (hentries : List.Forall₂ (fun member entry => RoundTripEntry member.1 member.2 entry)
      members entries) :
    RoundTrip (.obj members) (.fields entries) := by
  rw [← texts_of_roundTripEntries hentries] at hnodup
  constructor
  · exact .fields
      ⟨hnodup, forall_of_forall₂ (fun _ _ hentry => hentry.readable) hentries⟩
      (forall_of_forall₂ (fun _ _ hentry => hentry.inside) hentries)
  · rw [toJson, writeEntries_of_nodup (by simpa using hnodup), List.nil_append]
    exact .entries (sameEntries_of_roundTripEntries hentries)

theorem roundTrip_of_ofJson {value : Json} {t : Template} (hvalue : value.keysDistinct)
    (h : ofJson value = .ok t) : RoundTrip value t := by
  refine ofJson_induction (fun value t => value.keysDistinct → RoundTrip value t)
    (fun key node entry => node.keysDistinct → RoundTripEntry key node entry)
    ?paths ?fields ?scalar ?object ?group h hvalue
  case paths =>
    intro items _
    exact ⟨.paths items, .paths _⟩
  case fields =>
    intro members entries hentries _ hmembers
    obtain ⟨hnodup, hvalues⟩ := keysDistinct_obj.mp hmembers
    apply RoundTrip.fields hnodup
    exact ((List.forall₂_and_left _ _).mpr ⟨hvalues, hentries⟩).imp
      fun member entry hboth => hboth.2 hboth.1
  case scalar =>
    intro output source hreread _
    exact ⟨rfl, hreread, by simp [Entry.fields?], .scalar source.text⟩
  case object =>
    intro output source properties value inner hreread hunknown hsource hfields hgroup hinner
      hproperties
    have hinner := hinner (keysDistinct_of_lookup hproperties hfields)
    refine ⟨rfl, hreread, ?_, ?_⟩
    · rintro _ ⟨⟩
      exact hinner.lossless
    · exact sameNode_object (keysDistinct_obj.mp hproperties).1 hunknown hsource hfields hgroup
        hinner.same
  case group =>
    intro output source groupKey properties value inner hreread _ hunknown hsource hfields hgroup
      hinner hproperties
    have hinner := hinner (keysDistinct_of_lookup hproperties hfields)
    refine ⟨rfl, hreread, ?_, ?_⟩
    · rintro _ ⟨⟩
      exact hinner.lossless
    · exact sameNode_group (keysDistinct_obj.mp hproperties).1 hunknown hsource hfields hgroup
        hinner.same

/-- A template read from a document without repeated keys is written in the layout of that
document, is read back from what is written as it was, and is then written just the same. -/
theorem canonical_roundTrip {value : Json} {t : Template} (hvalue : value.keysDistinct)
    (h : ofJson value = .ok t) :
    ofJson (toJson t) = .ok t ∧ SameLayout (toJson t) value ∧
      (ofJson (toJson t)).map toJson = .ok (toJson t) := by
  have hround := roundTrip_of_ofJson hvalue h
  have hsound := everyLevel_sound_of_ofJson h
  have hread : ofJson (toJson t) = .ok t := by
    rw [ofJson_toJson hsound, reread_eq_self hsound hround.lossless]
  refine ⟨hread, hround.same, ?_⟩
  rw [hread]
  rfl

def reorderedDocument : Json :=
  .obj [("title", .str "issue.title"),
    ("people", .obj [("fields", .obj [("-", .str "name")]), ("groupKey", .str "all.names"),
      ("sourcePath", .str "authors")]),
    ("files", .obj [("fields", .arr [.str "path", .str "size.bytes"]),
      ("sourcePath", .str "files")])]

def reorderedTemplate : Template :=
  .fields [.scalar (.path (.ofSegments ["title"])) (.ofSegments ["issue", "title"]),
    .group (.path (.ofSegments ["people"])) (.ofSegments ["authors"])
      (.path (.ofSegments ["all", "names"]))
      (.fields [.scalar .level (.ofSegments ["name"])]),
    .object (.path (.ofSegments ["files"])) (.ofSegments ["files"])
      (.paths [.ofSegments ["path"], .ofSegments ["size", "bytes"]])]

theorem canonical_roundTrip_reordered :
    reorderedDocument.keysDistinct ∧ ofJson reorderedDocument = .ok reorderedTemplate ∧
    toJson reorderedTemplate ≠ reorderedDocument ∧
    ofJson (toJson reorderedTemplate) = .ok reorderedTemplate ∧
    SameLayout (toJson reorderedTemplate) reorderedDocument := by
  have hdistinct : reorderedDocument.keysDistinct := by
    decide
  have hread : ofJson reorderedDocument = .ok reorderedTemplate := by
    rfl
  obtain ⟨hreread, hsame, -⟩ := canonical_roundTrip hdistinct hread
  exact ⟨hdistinct, hread, by decide, hreread, hsame⟩

end Reshape.Template
