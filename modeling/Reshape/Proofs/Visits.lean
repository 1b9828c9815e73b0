import Mathlib.Data.List.Basic
import Reshape.Proofs.TemplateLevels
import Reshape.Template.Trace

/-!
The visits of a projection and its log.

A projection visits the entries of a template in order. When an entry reshapes the value at its
source, the entries of the template inside are visited right after it, once for each item if the
value is a sequence, and else once. `projectLogged` projects with a log, in which each entry that is
skipped is noted when it is visited, while the fragments are merged one by one. It makes the same
result as `project`, and the log is the trace. The trace names the visited entries whose source is
absent, in the order of their visits, and nothing of the document comes into it: documents in which
the same sources are present, with sequences of the same lengths, have the same trace
(`trace_visits`).
-/

namespace Reshape

def Entry.skip (entry : Entry) : Skip :=
  ⟨entry.output, entry.source⟩

namespace Template

open Json

/-! ### Projecting with a log -/

/-- Applies an action to each item of a sequence in order, and to any other value as a whole. -/
def onEachLogged (action : Json → StateM (List Skip) Json) : Json → StateM (List Skip) Json
  | .arr items => do return .arr (← items.mapM action)
  | value => action value

/-- Notes an entry that is skipped. -/
def logSkip (skip : Skip) : StateM (List Skip) Unit :=
  modify (· ++ [skip])

mutual

/-- The result of a template on a source document, made entry by entry with a log. -/
def projectLogged : Template → Json → StateM (List Skip) Json
  | .fields entries, source => mergeLogged entries source (.obj [])
  | .paths items, source => pure (.arr (items.filterMap (·.resolve source)))

/-- Merges the fragments of entries into a document, each one before the next entry is visited. -/
def mergeLogged : List Entry → Json → Json → StateM (List Skip) Json
  | [], _, held => pure held
  | entry :: rest, source, held => do
      match ← contributeLogged entry source with
      | some value => mergeLogged rest source (held.merge (entry.target.place value))
      | none => mergeLogged rest source held

/-- What an entry contributes. An entry that contributes nothing is noted. -/
def contributeLogged : Entry → Json → StateM (List Skip) (Option Json)
  | .scalar output path, source =>
      match path.resolve source with
      | some value => return some value
      | none => do
          logSkip ⟨output, path⟩
          return none
  | .object output path inner, source =>
      match path.resolve source with
      | some value => do return some (← onEachLogged (fun item => projectLogged inner item) value)
      | none => do
          logSkip ⟨output, path⟩
          return none
  | .group output path _ inner, source =>
      match path.resolve source with
      | some value => do return some (← onEachLogged (fun item => projectLogged inner item) value)
      | none => do
          logSkip ⟨output, path⟩
          return none

end

/-- An action gives a value and adds entries at the end of the log, whatever is in there. -/
def Logs {α : Type} (action : StateM (List Skip) α) (value : α) (skips : List Skip) : Prop :=
  ∀ log, action.run log = (value, log ++ skips)

section

variable {α β : Type}

theorem Logs.pure (value : α) : Logs (Pure.pure value) value [] := by
  intro log
  rw [List.append_nil]
  rfl

theorem Logs.bind {action : StateM (List Skip) α} {next : α → StateM (List Skip) β} {value : α}
    {result : β} {first second : List Skip} (haction : Logs action value first)
    (hnext : Logs (next value) result second) :
    Logs (action >>= next) result (first ++ second) := by
  intro log
  rw [StateT.run_bind, haction log, ← List.append_assoc]
  exact hnext (log ++ first)

theorem logs_logSkip (skip : Skip) : Logs (logSkip skip) () [skip] :=
  fun _ => rfl

theorem Logs.map {action : StateM (List Skip) α} {value : α} {skips : List Skip}
    (h : Logs action value skips) (change : α → β) :
    Logs (do return change (← action)) (change value) skips := by
  have hboth : Logs (do return change (← action)) (change value) (skips ++ []) :=
    h.bind (.pure (change value))
  rwa [List.append_nil] at hboth

theorem Logs.mapM {action : α → StateM (List Skip) β} {change : α → β} {skips : α → List Skip}
    (h : ∀ item, Logs (action item) (change item) (skips item)) (items : List α) :
    Logs (items.mapM action) (items.map change) (items.flatMap skips) := by
  induction items with
  | nil => exact .pure []
  | cons item items ih =>
      rw [List.mapM_cons]
      exact (h item).bind (ih.map _)

end

theorem logs_onEachLogged {action : Json → StateM (List Skip) Json} {change : Json → Json}
    {skips : Json → List Skip} (h : ∀ item, Logs (action item) (change item) (skips item))
    (value : Json) :
    Logs (onEachLogged action value) (value.onEach change) (value.elements.flatMap skips) := by
  cases value with
  | arr items => exact (Logs.mapM h items).map Json.arr
  | _ =>
      show Logs (action _) (change _) ([_].flatMap skips)
      rw [List.flatMap_singleton]
      exact h _

theorem contributeLogged_eq (entry : Entry) (source : Json) :
    contributeLogged entry source =
      match entry.source.resolve source, entry.fields? with
      | none, _ => do
          logSkip entry.skip
          return none
      | some value, none => return some value
      | some value, some inner => do return some (← onEachLogged inner.projectLogged value) := by
  cases entry <;> rw [contributeLogged, Entry.source] <;> cases Path.resolve _ source <;> rfl

theorem traceEntry_eq (entry : Entry) (source : Json) :
    traceEntry entry source =
      match entry.source.resolve source, entry.fields? with
      | none, _ => [entry.skip]
      | some _, none => []
      | some value, some inner => value.elements.flatMap inner.trace := by
  cases entry <;> rw [traceEntry, Entry.source] <;> cases Path.resolve _ source <;> rfl

theorem traceEntries_eq_flatMap (entries : List Entry) (source : Json) :
    traceEntries entries source = entries.flatMap (traceEntry · source) := by
  induction entries with
  | nil => rfl
  | cons entry entries ih => rw [traceEntries, ih, List.flatMap_cons]

theorem logs_contributeLogged {entry : Entry}
    (hinner : ∀ inner, entry.fields? = some inner →
      ∀ source, Logs (inner.projectLogged source) (inner.project source) (inner.trace source))
    (source : Json) :
    Logs (contributeLogged entry source) (contribution? entry source) (traceEntry entry source) := by
  rw [contributeLogged_eq, contribution?_eq, traceEntry_eq]
  cases entry.source.resolve source with
  | none => exact (logs_logSkip entry.skip).bind (.pure none)
  | some value =>
      cases hfields : entry.fields? with
      | none => exact .pure (some value)
      | some inner => exact (logs_onEachLogged (hinner inner hfields) value).map some

theorem logs_mergeLogged {entries : List Entry} {source : Json}
    (h : ∀ entry ∈ entries,
      Logs (contributeLogged entry source) (contribution? entry source) (traceEntry entry source))
    (held : Json) :
    Logs (mergeLogged entries source held) ((fragments entries source).foldl merge held)
      (traceEntries entries source) := by
  induction entries generalizing held with
  | nil => exact .pure held
  | cons entry entries ih =>
      obtain ⟨hentry, hentries⟩ := List.forall_mem_cons.mp h
      rw [mergeLogged, fragments, traceEntries]
      refine hentry.bind ?_
      cases contribution? entry source with
      | none => exact ih hentries held
      | some value => exact ih hentries (held.merge (entry.target.place value))

theorem logs_projectLogged (t : Template) (source : Json) :
    Logs (t.projectLogged source) (t.project source) (t.trace source) := by
  induction t generalizing source with
  | fields entries ih =>
      exact logs_mergeLogged (fun entry hentry => logs_contributeLogged (ih entry hentry) source) _
  | paths items => exact .pure _

/-! ### Visits -/

/-- An entry that is visited, and the value on which it is visited. -/
structure Visit where
  entry : Entry
  value : Json

/-- Whether the source of a visited entry is present. -/
def Visit.resolves (visit : Visit) : Bool :=
  present visit.value visit.entry

mutual

/-- The visits of a projection: every entry in order, and before the next one all visits of the
template inside it on the items at its source, or on the value there if it is no sequence. -/
def visits : Template → Json → List Visit
  | .fields entries, source => visitsOf entries source
  | .paths _, _ => []

def visitsOf : List Entry → Json → List Visit
  | [], _ => []
  | entry :: rest, source => ⟨entry, source⟩ :: (visitsInside entry source ++ visitsOf rest source)

def visitsInside : Entry → Json → List Visit
  | .scalar _ _, _ => []
  | .object _ path inner, source | .group _ path _ inner, source =>
      match path.resolve source with
      | some value => value.elements.flatMap fun element => visits inner element
      | none => []

end

theorem visitsInside_eq (entry : Entry) (source : Json) :
    visitsInside entry source =
      match entry.source.resolve source, entry.fields? with
      | some value, some inner => value.elements.flatMap inner.visits
      | _, _ => [] := by
  cases entry <;> rw [visitsInside, Entry.source] <;> cases Path.resolve _ source <;> rfl

theorem visitsOf_eq_flatMap (entries : List Entry) (source : Json) :
    visitsOf entries source =
      entries.flatMap fun entry => ⟨entry, source⟩ :: visitsInside entry source := by
  induction entries with
  | nil => rfl
  | cons entry entries ih => rw [visitsOf, ih, List.flatMap_cons, List.cons_append]

/-- The entries of visits whose source is absent. -/
def skipped (visits : List Visit) : List Skip :=
  (visits.filter (!·.resolves)).map (·.entry.skip)

theorem skipped_flatMap {α : Type} (visits : α → List Visit) (items : List α) :
    skipped (items.flatMap visits) = items.flatMap fun item => skipped (visits item) := by
  rw [skipped, List.filter_flatMap, List.map_flatMap]
  rfl

theorem traceEntry_eq_skipped {entry : Entry}
    (hinner : ∀ inner, entry.fields? = some inner →
      ∀ source, inner.trace source = skipped (inner.visits source)) (source : Json) :
    traceEntry entry source = skipped (⟨entry, source⟩ :: visitsInside entry source) := by
  rw [traceEntry_eq, visitsInside_eq]
  cases hvalue : entry.source.resolve source with
  | none => simp [skipped, Visit.resolves, present, hvalue]
  | some value =>
      cases hfields : entry.fields? with
      | none => simp [skipped, Visit.resolves, present, hvalue]
      | some inner =>
          have hinside : value.elements.flatMap inner.trace =
              skipped (value.elements.flatMap inner.visits) := by
            rw [skipped_flatMap]
            exact List.flatMap_congr fun element _ => hinner inner hfields element
          simpa [skipped, Visit.resolves, present, hvalue] using hinside

theorem trace_eq_skipped (t : Template) (source : Json) :
    t.trace source = skipped (t.visits source) := by
  induction t generalizing source with
  | fields entries ih =>
      rw [trace, visits, traceEntries_eq_flatMap, visitsOf_eq_flatMap, skipped_flatMap]
      exact List.flatMap_congr fun entry hentry => traceEntry_eq_skipped (ih entry hentry) source
  | paths items => rfl

theorem length_skipped (visits : List Visit) :
    (skipped visits).length + (visits.filter (·.resolves)).length = visits.length := by
  rw [skipped, List.length_map, Nat.add_comm]
  exact (List.length_eq_length_filter_add _).symm

/-! ### Documents of one shape -/

mutual

/-- Two documents have the same shape to a template. -/
inductive SameShape : Template → Json → Json → Prop
  | paths {items : List Path} {one other : Json} : SameShape (.paths items) one other
  | fields {entries : List Entry} {one other : Json}
      (each : ∀ entry ∈ entries, SameShapeEntry entry one other) :
      SameShape (.fields entries) one other

/-- Two documents have the same shape to an entry: its source is absent in both, or it copies what is
present in both, or it finds sequences of one length whose items have the same shape in turn, or two
values that are no sequences and have the same shape. -/
inductive SameShapeEntry : Entry → Json → Json → Prop
  | absent {entry : Entry} {one other : Json} (inOne : entry.source.resolve one = none)
      (inOther : entry.source.resolve other = none) : SameShapeEntry entry one other
  | copied {entry : Entry} {one other : Json} (fields : entry.fields? = none)
      (inOne : (entry.source.resolve one).isSome) (inOther : (entry.source.resolve other).isSome) :
      SameShapeEntry entry one other
  | items {entry : Entry} {inner : Template} {one other : Json} {first second : List Json}
      (fields : entry.fields? = some inner) (inOne : entry.source.resolve one = some (.arr first))
      (inOther : entry.source.resolve other = some (.arr second))
      (length : first.length = second.length)
      (each : ∀ index (hfirst : index < first.length) (hsecond : index < second.length),
        SameShape inner first[index] second[index]) : SameShapeEntry entry one other
  | whole {entry : Entry} {inner : Template} {one other first second : Json}
      (fields : entry.fields? = some inner) (inOne : entry.source.resolve one = some first)
      (inOther : entry.source.resolve other = some second) (firstKind : first.kind ≠ .sequence)
      (secondKind : second.kind ≠ .sequence) (inside : SameShape inner first second) :
      SameShapeEntry entry one other

end

theorem elements_of_kind_ne {value : Json} (hvalue : value.kind ≠ .sequence) :
    value.elements = [value] := by
  cases value with
  | arr items => exact (hvalue rfl).elim
  | _ => rfl

theorem traceEntry_eq_of_sameShape {entry : Entry} {one other : Json}
    (hinner : ∀ inner, entry.fields? = some inner → ∀ {one other : Json},
      SameShape inner one other → inner.trace one = inner.trace other)
    (h : SameShapeEntry entry one other) : traceEntry entry one = traceEntry entry other := by
  rw [traceEntry_eq, traceEntry_eq]
  cases h with
  | absent inOne inOther => rw [inOne, inOther]
  | copied fields inOne inOther =>
      obtain ⟨first, hfirst⟩ := Option.isSome_iff_exists.mp inOne
      obtain ⟨second, hsecond⟩ := Option.isSome_iff_exists.mp inOther
      rw [hfirst, hsecond, fields]
  | @items _ inner _ _ first second fields inOne inOther length each =>
      have hmap : first.map inner.trace = second.map inner.trace :=
        map_eq_map_of_getElem length fun index hfirst hsecond =>
          hinner inner fields (each index hfirst hsecond)
      rw [inOne, inOther, fields]
      show first.flatMap inner.trace = second.flatMap inner.trace
      rw [List.flatMap_def, hmap, List.flatMap_def]
  | @whole _ inner _ _ first second fields inOne inOther firstKind secondKind inside =>
      rw [inOne, inOther, fields]
      show first.elements.flatMap inner.trace = second.elements.flatMap inner.trace
      rw [elements_of_kind_ne firstKind, elements_of_kind_ne secondKind, List.flatMap_singleton,
        List.flatMap_singleton, hinner inner fields inside]

theorem trace_eq_of_sameShape {t : Template} {one other : Json} (h : SameShape t one other) :
    t.trace one = t.trace other := by
  induction t generalizing one other with
  | fields entries ih =>
      cases h with
      | fields each =>
          rw [trace, trace, traceEntries_eq_flatMap, traceEntries_eq_flatMap]
          exact List.flatMap_congr fun entry hentry =>
            traceEntry_eq_of_sameShape (fun inner hinner => ih entry hentry inner hinner)
              (each entry hentry)
  | paths items => rfl

/-- What is logged while a document is projected. The projection itself is the same as without the
log. The log gets one record for each visit of an entry whose source is absent, in the order of the
visits, so the records and the visits that find something are all visits. A record is made of the
entry alone, and so documents of the same shape give the same records. -/
theorem trace_visits (t : Template) :
    (∀ source log, (t.projectLogged source).run log =
      (t.project source, log ++ t.trace source)) ∧
    (∀ source, t.trace source =
      ((t.visits source).filter (!·.resolves)).map (·.entry.skip)) ∧
    (∀ source, (t.trace source).length + ((t.visits source).filter (·.resolves)).length =
      (t.visits source).length) ∧
    ∀ one other, SameShape t one other → t.trace one = t.trace other := by
  refine ⟨logs_projectLogged t, trace_eq_skipped t, ?_, fun _ _ => trace_eq_of_sameShape⟩
  intro source
  rw [trace_eq_skipped]
  exact length_skipped (t.visits source)

def authorTemplate : Template :=
  .fields [.scalar (.path (.ofSegments ["title"])) (.ofSegments ["title"]),
    .group (.path (.ofSegments ["authors"])) (.ofSegments ["authors"])
      (.path (.ofSegments ["names"]))
      (.fields [.scalar (.path (.ofSegments ["first"])) (.ofSegments ["name", "first"]),
        .scalar (.path (.ofSegments ["mail"])) (.ofSegments ["mail"])]),
    .object (.path (.ofSegments ["status"])) (.ofSegments ["status"])
      (.fields [.scalar (.path (.ofSegments ["code"])) (.ofSegments ["code"])])]

def authorDocument : Json :=
  .obj [("title", .str "t"),
    ("authors", .arr [.obj [("name", .obj [("first", .str "n")])], .obj [("mail", .str "m")]]),
    ("status", .str "open")]

def redactedDocument : Json :=
  .obj [("status", .obj [("since", .null)]),
    ("authors", .arr [.obj [("name", .obj [("first", .null)])], .obj [("mail", .bool true)]]),
    ("title", .obj [])]

theorem trace_visits_redacted :
    SameShape authorTemplate authorDocument redactedDocument ∧
    authorTemplate.trace redactedDocument =
      [⟨.path (.ofSegments ["mail"]), .ofSegments ["mail"]⟩,
        ⟨.path (.ofSegments ["first"]), .ofSegments ["name", "first"]⟩,
        ⟨.path (.ofSegments ["code"]), .ofSegments ["code"]⟩] ∧
    (authorTemplate.visits authorDocument).length = 8 := by
  have hshape : SameShape authorTemplate authorDocument redactedDocument := by
    refine .fields ?_
    simp only [List.forall_mem_cons, List.not_mem_nil, false_implies, implies_true, and_true]
    refine ⟨.copied rfl rfl rfl, .items rfl rfl rfl rfl ?_,
      .whole rfl rfl rfl (by decide) (by decide) (.fields (by simpa using .absent rfl rfl))⟩
    intro index hfirst _
    match index, hfirst with
    | 0, _ => exact .fields (by simpa using ⟨.copied rfl rfl rfl, .absent rfl rfl⟩)
    | 1, _ => exact .fields (by simpa using ⟨.absent rfl rfl, .copied rfl rfl rfl⟩)
  obtain ⟨-, -, hcount, hsame⟩ := trace_visits authorTemplate
  refine ⟨hshape, ?_, ?_⟩
  · rw [← hsame _ _ hshape]
    rfl
  · rw [← hcount]
    rfl

end Template

end Reshape
