import Mathlib.Data.List.Basic
import Reshape.Proofs.TemplateLevels

/-!
What a projection can see of its source.

Two documents are alike to a template when the paths of the template find the same in both; of a
value that is reshaped further, only whether it is a sequence, and of how many items, and what the
template inside finds in it. Such documents have the same result (`project_eq_of_alike`), although
a number in one may be a mapping in the other. A place in a document is ignored by a template when
no path of the template leads to it, into it or past it. What stands there makes no difference.
-/

namespace Reshape

namespace Json

/-! ### Places in a document -/

/-- One step into a document: to the value at a key or to an item. -/
inductive Step where
  | key (name : String)
  | item (index : Nat)
deriving DecidableEq

def alterMember (name : String) (change : Json → Json) (members : List (String × Json)) :
    List (String × Json) :=
  members.map fun member => if member.1 = name then (name, change member.2) else member

/-- Changes the value at a place, if there is one. -/
def alter (change : Json → Json) : List Step → Json → Json
  | [], value => change value
  | .key name :: place, .obj members => .obj (alterMember name (alter change place) members)
  | .item index :: place, .arr items => .arr (items.modify index (alter change place))
  | _ :: _, value => value

theorem lookup_alterMember (name : String) (change : Json → Json) (key : String)
    (members : List (String × Json)) :
    (alterMember name change members).lookup key =
      if key = name then (members.lookup key).map change else members.lookup key := by
  induction members with
  | nil => simp [alterMember]
  | cons member members ih =>
      obtain ⟨held, value⟩ := member
      rw [alterMember, List.map_cons, ← alterMember]
      by_cases hheld : held = name <;> grind

theorem kind_alter (change : Json → Json) (step : Step) (place : List Step) (value : Json) :
    (alter change (step :: place) value).kind = value.kind := by
  cases step <;> cases value <;> rfl

/-- Keys and a place part ways: neither leads on from the other. -/
def Beside (keys : List String) (place : List Step) : Prop :=
  ¬ keys.map .key <+: place ∧ ¬ place <+: keys.map .key

instance (keys : List String) (place : List Step) : Decidable (Beside keys place) :=
  inferInstanceAs (Decidable (_ ∧ _))

theorem beside_cons_key {key : String} {keys : List String} {place : List Step} :
    Beside (key :: keys) (.key key :: place) ↔ Beside keys place := by
  simp [Beside]

theorem descend?_alter_of_beside {keys : List String} {place : List Step}
    (h : Beside keys place) (change : Json → Json) (source : Json) :
    descend? keys (alter change place source) = descend? keys source := by
  induction keys generalizing place source with
  | nil => exact (h.1 (List.nil_prefix ..)).elim
  | cons key keys ih =>
      cases place with
      | nil => exact (h.2 (List.nil_prefix ..)).elim
      | cons step place =>
          cases step with
          | item index => cases source <;> rfl
          | key name =>
              cases source with
              | obj members =>
                  rw [alter, descend?_cons_obj, descend?_cons_obj, lookup_alterMember]
                  by_cases hname : key = name
                  · subst hname
                    rw [if_pos rfl]
                    cases members.lookup key with
                    | none => rfl
                    | some value => exact ih (beside_cons_key.mp h) value
                  · rw [if_neg hname]
              | _ => rfl

theorem descend?_alter_append (keys : List String) (place : List Step) (change : Json → Json)
    (source : Json) :
    descend? keys (alter change (keys.map .key ++ place) source) =
      (descend? keys source).map (alter change place) := by
  induction keys generalizing source with
  | nil => rfl
  | cons key keys ih =>
      cases source with
      | obj members =>
          rw [List.map_cons, List.cons_append, alter, descend?_cons_obj, descend?_cons_obj,
            lookup_alterMember, if_pos rfl]
          cases members.lookup key with
          | none => rfl
          | some value => exact ih value
      | _ => rfl

end Json

theorem Path.resolve_alter (p : Path) (place : List Json.Step) (change : Json → Json)
    (source : Json) :
    p.resolve (Json.alter change (p.segments.map .key ++ place) source) =
      (p.resolve source).map (Json.alter change place) :=
  Json.descend?_alter_append p.segments place change source

namespace Template

open Json

/-! ### Documents that are alike -/

mutual

/-- Two documents are alike to a template. -/
inductive Alike : Template → Json → Json → Prop
  | paths {items : List Path} {one other : Json}
      (same : ∀ p ∈ items, p.resolve one = p.resolve other) : Alike (.paths items) one other
  | fields {entries : List Entry} {one other : Json}
      (each : ∀ entry ∈ entries, AlikeEntry entry one other) : Alike (.fields entries) one other

/-- Two documents are alike to an entry: it copies the same from both, or it finds nothing in
either, or sequences whose items are alike in turn, or two values that are no sequences and are
alike as a whole. -/
inductive AlikeEntry : Entry → Json → Json → Prop
  | scalar {entry : Entry} {one other : Json} (fields : entry.fields? = none)
      (same : entry.source.resolve one = entry.source.resolve other) : AlikeEntry entry one other
  | absent {entry : Entry} {one other : Json} (inOne : entry.source.resolve one = none)
      (inOther : entry.source.resolve other = none) : AlikeEntry entry one other
  | items {entry : Entry} {inner : Template} {one other : Json} {first second : List Json}
      (fields : entry.fields? = some inner) (inOne : entry.source.resolve one = some (.arr first))
      (inOther : entry.source.resolve other = some (.arr second))
      (length : first.length = second.length)
      (each : ∀ index (hfirst : index < first.length) (hsecond : index < second.length),
        Alike inner first[index] second[index]) : AlikeEntry entry one other
  | whole {entry : Entry} {inner : Template} {one other first second : Json}
      (fields : entry.fields? = some inner) (inOne : entry.source.resolve one = some first)
      (inOther : entry.source.resolve other = some second) (firstKind : first.kind ≠ .sequence)
      (secondKind : second.kind ≠ .sequence) (alike : Alike inner first second) :
      AlikeEntry entry one other

end

theorem contribution?_eq_of_alike {entry : Entry} {one other : Json}
    (hinner : ∀ inner, entry.fields? = some inner → ∀ {one other : Json},
      Alike inner one other → inner.project one = inner.project other)
    (h : AlikeEntry entry one other) : contribution? entry one = contribution? entry other := by
  rw [contribution?_eq, contribution?_eq]
  cases h with
  | scalar fields same => rw [same]
  | absent inOne inOther => rw [inOne, inOther]
  | @items _ inner _ _ first second fields inOne inOther length each =>
      have hmap : first.map inner.project = second.map inner.project :=
        map_eq_map_of_getElem length fun index hfirst hsecond =>
          hinner inner fields (each index hfirst hsecond)
      rw [inOne, inOther, fields]
      exact congrArg (fun items => some (Json.arr items)) hmap
  | @whole _ inner _ _ first second fields inOne inOther firstKind secondKind alike =>
      rw [inOne, inOther, fields]
      show some (first.onEach inner.project) = some (second.onEach inner.project)
      rw [onEach_of_kind_ne firstKind, onEach_of_kind_ne secondKind, hinner inner fields alike]

theorem project_eq_of_alike {t : Template} {one other : Json} (h : Alike t one other) :
    t.project one = t.project other := by
  induction t generalizing one other with
  | fields entries ih =>
      cases h with
      | fields each =>
          have hplaced : placements entries one = placements entries other := by
            apply List.filterMap_congr
            intro entry hentry
            rw [contribution?_eq_of_alike (fun inner hinner => ih entry hentry inner hinner)
              (each entry hentry)]
          rw [project_fields, project_fields, hplaced]
  | paths items =>
      cases h with
      | paths same => exact congrArg Json.arr (List.filterMap_congr same)

theorem alikeEntry_of_resolve_eq {entry : Entry} {one other : Json}
    (hinner : ∀ inner, entry.fields? = some inner → ∀ value, Alike inner value value)
    (h : entry.source.resolve one = entry.source.resolve other) : AlikeEntry entry one other := by
  cases hfields : entry.fields? with
  | none => exact .scalar hfields h
  | some inner =>
      cases hvalue : entry.source.resolve one with
      | none => exact .absent hvalue (h ▸ hvalue)
      | some value =>
          have hother : entry.source.resolve other = some value := h ▸ hvalue
          by_cases hkind : value.kind = .sequence
          · cases value with
            | arr items =>
                exact .items hfields hvalue hother rfl fun _ _ _ => hinner inner hfields _
            | _ => cases hkind
          · exact .whole hfields hvalue hother hkind hkind (hinner inner hfields value)

theorem Alike.refl (t : Template) (source : Json) : Alike t source source := by
  induction t generalizing source with
  | fields entries ih =>
      exact .fields fun entry hentry => alikeEntry_of_resolve_eq (ih entry hentry) rfl
  | paths items => exact .paths fun _ _ => rfl

/-! ### Places that are ignored -/

mutual

/-- A template has no path to a place, into what stands there, or past it. -/
inductive Ignores : Template → List Step → Prop
  | paths {items : List Path} {place : List Step}
      (beside : ∀ p ∈ items, Beside p.segments place) : Ignores (.paths items) place
  | fields {entries : List Entry} {place : List Step}
      (each : ∀ entry ∈ entries, IgnoresEntry entry place) : Ignores (.fields entries) place

/-- An entry ignores a place beside its source, and one within its source that the template inside
the entry ignores, be it in the value as a whole or in one of its items. -/
inductive IgnoresEntry : Entry → List Step → Prop
  | beside {entry : Entry} {place : List Step} (beside : Beside entry.source.segments place) :
      IgnoresEntry entry place
  | member {entry : Entry} {inner : Template} {name : String} {place : List Step}
      (fields : entry.fields? = some inner) (ignores : Ignores inner (.key name :: place)) :
      IgnoresEntry entry (entry.source.segments.map .key ++ .key name :: place)
  | item {entry : Entry} {inner : Template} {index : Nat} {place : List Step}
      (fields : entry.fields? = some inner) (ignores : Ignores inner place) :
      IgnoresEntry entry (entry.source.segments.map .key ++ .item index :: place)

end

theorem alikeEntry_alter {entry : Entry} {place : List Step} {change : Json → Json}
    (hinner : ∀ inner, entry.fields? = some inner → ∀ {place}, Ignores inner place →
      ∀ source, Alike inner source (alter change place source))
    (h : IgnoresEntry entry place) (source : Json) :
    AlikeEntry entry source (alter change place source) := by
  have hrefl : ∀ inner, entry.fields? = some inner → ∀ value, Alike inner value value :=
    fun inner _ value => .refl inner value
  cases h with
  | beside hbeside =>
      exact alikeEntry_of_resolve_eq hrefl (descend?_alter_of_beside hbeside change source).symm
  | @member _ inner name place fields ignores =>
      have hplace := entry.source.resolve_alter (.key name :: place) change source
      cases hvalue : entry.source.resolve source with
      | none => exact .absent hvalue (by rw [hplace, hvalue]; rfl)
      | some value =>
          rw [hvalue] at hplace
          by_cases hkind : value.kind = .sequence
          · -- A sequence has nothing at a key, so it is left as it is.
            have hsame : alter change (.key name :: place) value = value := by
              cases value with
              | arr items => rfl
              | _ => cases hkind
            exact alikeEntry_of_resolve_eq hrefl (by rw [hplace, hvalue, Option.map_some, hsame])
          · exact .whole fields hvalue hplace hkind (by rwa [kind_alter])
              (hinner inner fields ignores value)
  | @item _ inner index place fields ignores =>
      have hplace := entry.source.resolve_alter (.item index :: place) change source
      cases hvalue : entry.source.resolve source with
      | none => exact .absent hvalue (by rw [hplace, hvalue]; rfl)
      | some value =>
          rw [hvalue] at hplace
          cases value with
          | arr items =>
              refine .items fields hvalue hplace (List.length_modify ..).symm ?_
              intro position hfirst hsecond
              rw [List.getElem_modify]
              split
              · exact hinner inner fields ignores items[position]
              · exact .refl inner items[position]
          | _ => exact alikeEntry_of_resolve_eq hrefl (hvalue.trans hplace.symm)

theorem alike_alter {t : Template} {place : List Step} (h : Ignores t place)
    (change : Json → Json) (source : Json) : Alike t source (alter change place source) := by
  induction t generalizing place source with
  | fields entries ih =>
      cases h with
      | fields each =>
          exact .fields fun entry hentry =>
            alikeEntry_alter (fun inner hinner => ih entry hentry inner hinner) (each entry hentry)
              source
  | paths items =>
      cases h with
      | paths beside =>
          exact .paths fun p hp => (descend?_alter_of_beside (beside p hp) change source).symm

/-- A projection sees of its source only what the paths of the template find, and of a value that
is reshaped further whether it is a sequence and how long. So what stands at a place that the
template ignores does not reach the result. -/
theorem project_sees_named (t : Template) :
    (∀ one other, Alike t one other → t.project one = t.project other) ∧
    ∀ place, Ignores t place → ∀ change source,
      t.project (alter change place source) = t.project source :=
  ⟨fun _ _ => project_eq_of_alike, fun _ hplace change source =>
    (project_eq_of_alike (alike_alter hplace change source)).symm⟩

def viewTemplate : Template :=
  .fields [.scalar (.path (.ofSegments ["title"])) (.ofSegments ["title"]),
    .group (.path (.ofSegments ["names"])) (.ofSegments ["authors"])
      (.path (.ofSegments ["names"]))
      (.fields [.scalar .level (.ofSegments ["name"])]),
    .object (.path (.ofSegments ["status"])) (.ofSegments ["status"])
      (.paths [.ofSegments ["code"]])]

def openDocument : Json :=
  .obj [("title", .str "t"),
    ("authors", .arr [.obj [("name", .str "n"), ("mail", .str "m")], .null]),
    ("status", .str "open")]

def otherDocument : Json :=
  .obj [("authors", .arr [.obj [("name", .str "n")], .obj [("mail", .null)]]),
    ("status", .obj [("since", .null)]), ("title", .str "t")]

theorem project_sees_named_open :
    Alike viewTemplate openDocument otherDocument ∧
    viewTemplate.project otherDocument =
      .obj [("title", .str "t"), ("names", .arr [.str "n", .obj []]), ("status", .arr [])] ∧
    Ignores viewTemplate [.key "authors", .item 0, .key "mail"] ∧
    ∀ change, viewTemplate.project
        (alter change [.key "authors", .item 0, .key "mail"] openDocument) =
      viewTemplate.project openDocument := by
  have halike : Alike viewTemplate openDocument otherDocument := by
    refine .fields ?_
    simp only [List.forall_mem_cons, List.not_mem_nil, false_implies, implies_true, and_true]
    refine ⟨.scalar rfl rfl, .items rfl rfl rfl rfl ?_,
      .whole rfl rfl rfl (by decide) (by decide) (.paths (by decide))⟩
    intro index hfirst _
    match index, hfirst with
    | 0, _ => exact .fields (by simpa using .scalar rfl rfl)
    | 1, _ => exact .fields (by simpa using .scalar rfl rfl)
  have hignores : Ignores viewTemplate [.key "authors", .item 0, .key "mail"] := by
    refine .fields ?_
    simp only [List.forall_mem_cons, List.not_mem_nil, false_implies, implies_true, and_true]
    exact ⟨.beside (by decide), .item rfl (.fields (by simpa using .beside (by decide))),
      .beside (by decide)⟩
  obtain ⟨hsame, hunseen⟩ := project_sees_named viewTemplate
  refine ⟨halike, ?_, hignores, fun change => hunseen _ hignores change openDocument⟩
  rw [← hsame openDocument otherDocument halike]
  rfl

end Template

end Reshape
