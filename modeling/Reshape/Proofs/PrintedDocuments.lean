import Reshape.Command.Run
import Reshape.Proofs.PrintedText
import Reshape.Proofs.TemplateLevels

/-!
What is printed, and what can be read from it.

A document is printed as a text that may not control a terminal. Of all that the text of a document
can hold, that takes away one character, U+007F. So what is printed is read, at any depth and with
each number as the nearest one, as the document without that character, its members with one key
united (`readDeep_printed`). It is read as the very document that was printed just if that character
is in none of its strings and keys (`readDeep_printed_eq_self_iff`). What the subcommands print is a
template in the canonical layout, or the projection of the document that was read.
-/

namespace Reshape

namespace Command

open Json

theorem printed_eq {value : Json} {table : Bool} (h : table = false ∨ value.isMapping = false) :
    printed value table =
      String.ofList (prettyText 0 (value.mapTexts withoutDelete) ++ ['\n']) := by
  have hprinted : printed value table = Text.plain [value.pretty, "\n"] := by
    cases value with
    | obj members =>
        rcases h with rfl | h
        · rfl
        · cases h
    | _ => rfl
  have hpieces : ∀ piece ∈ [value.pretty, "\n"], ∀ c ∈ piece.toList,
      c = '\n' ∨ 0x20 ≤ c.toNat := by
    simp only [List.forall_mem_cons]
    exact ⟨fun _ => printing_of_mem_pretty, List.all_iff_forall_prop.mp (by decide), by simp⟩
  have hchars : [value.pretty, "\n"].flatMap String.toList = prettyText 0 value ++ ['\n'] := by
    simp [pretty]
  rw [hprinted, Text.plain, Text.plainFrom_none hpieces, hchars, List.filter_append,
    pretty_isLayout.filter]
  rfl

section

variable {value : Json} {table : Bool} (h : table = false ∨ value.isMapping = false)

include h

/-- What is printed of a document is read as that document without U+007F, the members that have
one key by then united. -/
theorem readDeep_printed :
    readDeep (printed value table) = .ok (value.mapTexts withoutDelete).united := by
  -- The limit on nesting is the length of the text, and no document is nested deeper.
  have hdepth : (value.mapTexts withoutDelete).depth ≤
      (prettyText 0 (value.mapTexts withoutDelete) ++ ['\n']).length := by
    have := pretty_isLayout.depth_le_length 0 (value.mapTexts withoutDelete)
    simp only [List.length_append]
    omega
  have hback := pretty_isLayout.readBack hdepth (fun number _ => exact_recovers number) 0
  rw [printed_eq h, readDeep, String.toList_ofList, String.length_ofList,
    whole_append hback allBlank_lineEnd]
  rfl

/-- What is printed of a document is read as the same document just if U+007F is in none of its
strings and keys. -/
theorem readDeep_printed_eq_self_iff (hkeys : value.keysDistinct) :
    readDeep (printed value table) = .ok value ↔ value.Lacks '\x7f' := by
  rw [readDeep_printed h, Except.ok.injEq, lacks_iff_madeOf]
  constructor
  · intro heq
    rw [← heq]
    apply holds_united byParts_madeOf
    apply madeOf_mapTexts
    · rintro text _ ⟨⟩
      exact not_mem_withoutDelete text
    · exact not_mem_withoutDelete
    · rintro part - - hstring - text rfl
      exact (hstring rfl).elim
  · intro hlacks
    have hself : value.mapTexts withoutDelete = value := by
      apply mapTexts_eq_self
      constructor
      case scalar =>
        rintro part hsequence hmapping hpart text rfl
        exact withoutDelete_eq_self (hlacks.scalar _ hsequence hmapping hpart text rfl)
      case key => exact fun key hkey => withoutDelete_eq_self (hlacks.key key hkey)
    rw [hself, united_eq_self hkeys]

end

/-! ### Runs -/

theorem decodeText_toByteArray (text : String) : decodeText text.toByteArray = .ok text := by
  rw [decodeText, fromUTF8?_toByteArray]

theorem exists_template_of_done {choice : TemplateChoice} {verbose : Bool}
    {surroundings : Surroundings} (h : (runTemplate choice verbose surroundings).ending = .done) :
    ∃ template, choice.load surroundings = .ok template ∧
      (runTemplate choice verbose surroundings).standardOutput = printed template.toJson false := by
  unfold runTemplate at h ⊢
  cases hload : choice.load surroundings with
  | error failure => simp [hload] at h
  | ok template => exact ⟨template, rfl, rfl⟩

theorem runProject_eq {options : ProjectOptions} {verbose : Bool} {surroundings : Surroundings}
    {template : Template} {source : Json}
    (htemplate : options.template.load surroundings = .ok template)
    (hsource : readInput options.input? surroundings = .ok source) :
    runProject options verbose surroundings =
      ⟨printed (template.project source) options.table,
        report verbose ["Projecting through ", toString template.length, " template entries"],
        .done⟩ := by
  rw [runProject, htemplate, hsource]
  rfl

theorem exists_template_source_of_done {options : ProjectOptions} {verbose : Bool}
    {surroundings : Surroundings} (h : (runProject options verbose surroundings).ending = .done) :
    ∃ template source, options.template.load surroundings = .ok template ∧
      readInput options.input? surroundings = .ok source ∧
      (runProject options verbose surroundings).standardOutput =
        printed (template.project source) options.table := by
  cases hload : options.template.load surroundings with
  | error failure => simp [runProject, hload, bind, Except.bind] at h
  | ok template =>
      cases hinput : readInput options.input? surroundings with
      | error failure => simp [runProject, hload, hinput, bind, Except.bind] at h
      | ok source => exact ⟨template, source, rfl, rfl, by rw [runProject_eq hload hinput]⟩

theorem keysDistinct_of_readInput {input? : Option String} {surroundings : Surroundings}
    {source : Json} (h : readInput input? surroundings = .ok source) : source.keysDistinct := by
  cases input? with
  | none =>
      obtain ⟨text, -, hread⟩ := bind_eq_ok.mp h
      exact keysDistinct_of_read (mapError_eq_ok.mp hread)
  | some path =>
      obtain ⟨text, -, hread⟩ := bind_eq_ok.mp h
      exact keysDistinct_of_read (mapError_eq_ok.mp hread)

/-- What an output for a document is read as: the document without U+007F, the members that have
one key by then united. This is the document just if U+007F is in none of its texts. -/
structure Shows (output : String) (value : Json) : Prop where
  read : readDeep output = .ok (value.mapTexts withoutDelete).united
  exact : readDeep output = .ok value ↔ value.Lacks '\x7f'

theorem shows_printed {value : Json} {table : Bool} (hkeys : value.keysDistinct)
    (h : table = false ∨ value.isMapping = false) : Shows (printed value table) value :=
  ⟨readDeep_printed h, readDeep_printed_eq_self_iff h hkeys⟩

/-- What a run that is done shows. For the subcommand `template` it is the template that was loaded,
and for `project` the projection of the document that was read, unless it is shown as a table. -/
theorem run_shows {arguments : List String} {surroundings : Surroundings} {invocation : Invocation}
    (hread : Invocation.read arguments surroundings.environment = .ok invocation)
    (hdone : (run arguments surroundings).ending = .done) :
    (∀ choice, invocation.task = .template choice →
      ∃ template, choice.load surroundings = .ok template ∧
        Shows (run arguments surroundings).standardOutput template.toJson) ∧
    ∀ options, invocation.task = .project options →
      ∃ template source, options.template.load surroundings = .ok template ∧
        readInput options.input? surroundings = .ok source ∧
        (options.table = false ∨ (template.project source).isMapping = false →
          Shows (run arguments surroundings).standardOutput (template.project source)) := by
  have hrun : run arguments surroundings = invocation.run surroundings := by
    rw [run, hread]
  rw [hrun] at hdone ⊢
  unfold Invocation.run at hdone ⊢
  constructor
  · intro choice htask
    rw [htask] at hdone ⊢
    obtain ⟨template, hload, houtput⟩ := exists_template_of_done hdone
    refine ⟨template, hload, ?_⟩
    rw [houtput]
    exact shows_printed (Template.keysDistinct_toJson template) (.inl rfl)
  · intro options htask
    rw [htask] at hdone ⊢
    obtain ⟨template, source, hload, hinput, houtput⟩ := exists_template_source_of_done hdone
    refine ⟨template, source, hload, hinput, fun htable => ?_⟩
    rw [houtput]
    exact shows_printed
      (Template.keysDistinct_project template (keysDistinct_of_readInput hinput)) htable

def projectArguments : List String :=
  ["project", "--input", "in.json", "--template", "t.json"]

/-- Two files and nothing else. -/
def twoFiles (input template : String) : Surroundings where
  environment := []
  contentsOf path := if path = "in.json" then .ok input.toByteArray else .ok template.toByteArray
  standardInput := .empty

theorem read_projectArguments : Invocation.read projectArguments [] =
    .ok ⟨false, .project ⟨some "in.json", ⟨some "t.json", false⟩, false⟩⟩ := by
  rfl

theorem load_twoFiles {input template : String} {t : Template}
    (h : Template.ofText template = .ok t) :
    TemplateChoice.load ⟨some "t.json", false⟩ (twoFiles input template) = .ok t := by
  simp [TemplateChoice.load, twoFiles, bind, Except.bind, decodeText_toByteArray,
    Except.mapError, h]

theorem readInput_twoFiles {input template : String} {source : Json}
    (h : Json.read input = .ok source) :
    readInput (some "in.json") (twoFiles input template) = .ok source := by
  simp [readInput, twoFiles, bind, Except.bind, decodeText_toByteArray, Except.mapError, h]

theorem run_projectArguments {input template : String} {source : Json} {t : Template}
    (hsource : Json.read input = .ok source) (htemplate : Template.ofText template = .ok t) :
    run projectArguments (twoFiles input template) =
      ⟨printed (t.project source) false, "", .done⟩ := by
  have hread : Invocation.read projectArguments (twoFiles input template).environment = _ :=
    read_projectArguments
  rw [run, hread]
  exact runProject_eq (load_twoFiles htemplate) (readInput_twoFiles hsource)

def copyText : String :=
  "\x7b\"a\": \"a\"\x7d"

def copyTemplate : Template :=
  .fields [.scalar (.path (.ofSegments ["a"])) (.ofSegments ["a"])]

theorem ofText_copyText : Template.ofText copyText = .ok copyTemplate := by
  have hread : Json.read copyText = .ok (.obj [("a", .str "a")]) := by
    rfl
  rw [Template.ofText_of_read hread]
  rfl

/-- A document in which U+007F is all that tells two keys apart. -/
def deletedKeyText : String :=
  "\x7b\"a\": \x7b\"k\x7f\": true, \"k\": null\x7d\x7d"

def deletedKeyDocument : Json :=
  .obj [("a", .obj [("k\x7f", .bool true), ("k", .null)])]

theorem read_deletedKeyText : Json.read deletedKeyText = .ok deletedKeyDocument := by
  rfl

theorem run_shows_united :
    (run projectArguments (twoFiles deletedKeyText copyText)).ending = .done ∧
    Shows (run projectArguments (twoFiles deletedKeyText copyText)).standardOutput
      deletedKeyDocument ∧
    (deletedKeyDocument.mapTexts withoutDelete).united = .obj [("a", .obj [("k", .null)])] := by
  have hrun := run_projectArguments read_deletedKeyText ofText_copyText
  have hdone : (run projectArguments (twoFiles deletedKeyText copyText)).ending = .done := by
    rw [hrun]
  obtain ⟨template, source, hload, hinput, hshows⟩ :=
    (run_shows read_projectArguments hdone).2 _ rfl
  rw [load_twoFiles ofText_copyText] at hload
  rw [readInput_twoFiles read_deletedKeyText] at hinput
  obtain rfl := Except.ok.inj hload
  obtain rfl := Except.ok.inj hinput
  exact ⟨hdone, hshows (.inl rfl), rfl⟩

def deletedText : String :=
  "\x7b\"a\": \"x\x7fy\"\x7d"

def deletedDocument : Json :=
  .obj [("a", .str "x\x7fy")]

theorem read_deletedText : Json.read deletedText = .ok deletedDocument := by
  rfl

/-- The projection of a document is not what its output is read as. -/
theorem run_loses_delete :
    Invocation.read projectArguments (twoFiles deletedText copyText).environment =
      .ok ⟨false, .project ⟨some "in.json", ⟨some "t.json", false⟩, false⟩⟩ ∧
    TemplateChoice.load ⟨some "t.json", false⟩ (twoFiles deletedText copyText) =
      .ok copyTemplate ∧
    readInput (some "in.json") (twoFiles deletedText copyText) = .ok deletedDocument ∧
    (run projectArguments (twoFiles deletedText copyText)).ending = .done ∧
    readDeep (run projectArguments (twoFiles deletedText copyText)).standardOutput ≠
      .ok (copyTemplate.project deletedDocument) := by
  have hrun := run_projectArguments read_deletedText ofText_copyText
  refine ⟨read_projectArguments, load_twoFiles ofText_copyText,
    readInput_twoFiles read_deletedText, by rw [hrun], ?_⟩
  rw [hrun]
  intro hread
  have hlacks := (readDeep_printed_eq_self_iff (.inl rfl) (by decide)).mp hread
  exact absurd (hlacks.strings "x\x7fy" (.member (List.mem_cons_self ..) .whole)) (by decide)

end Command

end Reshape
