import Reshape.Proofs.DocumentEnds
import Reshape.Template.Text

/-!
In which order the text of a template is looked at.

A template can be read out of a document that was read first, or straight from the text, and then
before or after it is looked at what stands behind the document. `readings_agree` says that this
makes no difference to which templates are read, and to which fault is reported only where a text
has two of them: a document that is no template, and something behind it.
-/

namespace Reshape.Template

/-- Reads the document in a text, and then a template out of it. -/
def ofDocumentText (text : String) : Except LeadingError Template := do
  let document ← (Json.read text).mapError .text
  (ofJson document).mapError .template

/-- A text is that of a document and something more, other than blanks. -/
def GoesOn (text : String) (document : Json) : Prop :=
  ∃ front behind, text.toList = front ++ behind ∧ Json.read (String.ofList front) = .ok document ∧
    Json.leading text.toList = .ok (document, behind) ∧
    Json.skipBlanks behind ≠ []

/-- What three ways of reading make of a text, with their faults as they are worded: from the text,
out of the document in it, and as soon as the document is read. -/
inductive Readings (text : String) :
    Except String Template → Except String Template → Except String Template → Prop
  | template {document : Json} {t : Template} (read : Json.read text = .ok document)
      (layout : ofJson document = .ok t) : Readings text (.ok t) (.ok t) (.ok t)
  | noTemplate {document : Json} {error : TemplateError} (read : Json.read text = .ok document)
      (fault : ofJson document = .error error) :
      Readings text (.error error.message) (.error error.message) (.error error.message)
  | noDocument {error : Json.ReadError} (fault : Json.read text = .error error)
      (leading : ∀ document, GoesOn text document → ∃ t, ofJson document = .ok t) :
      Readings text (.error ("template is not valid JSON: " ++ error.message))
        (.error error.message) (.error error.message)
  | bothFaults {document : Json} {error : Json.ReadError} {templateError : TemplateError}
      (fault : Json.read text = .error error) (trailing : error.fault = .trailingCharacters)
      (goesOn : GoesOn text document) (layout : ofJson document = .error templateError) :
      Readings text (.error ("template is not valid JSON: " ++ error.message))
        (.error error.message) (.error templateError.message)

theorem GoesOn.eq_of_value {text : String} {document other : Json} {behind : List Char}
    (h : GoesOn text document)
    (hother : Json.leading text.toList = .ok (other, behind)) :
    document = other := by
  obtain ⟨_, _, -, -, hvalue, -⟩ := h
  cases hvalue.symm.trans hother
  rfl

theorem readings_of_read {text : String} {document : Json} (hread : Json.read text = .ok document) :
    ofText text = ofJson document ∧
      ofDocumentText text = (ofJson document).mapError .template := by
  rw [ofText, ofDocumentText, hread]
  exact ⟨rfl, rfl⟩

theorem readings_of_fault {text : String} {error : Json.ReadError}
    (hread : Json.read text = .error error) :
    ofText text = .error (.text error) ∧ ofDocumentText text = .error (.text error) := by
  rw [ofText, ofDocumentText, hread]
  exact ⟨rfl, rfl⟩

section

variable {text : String} {document : Json} {behind : List Char}
  (hvalue : Json.leading text.toList = .ok (document, behind))

include hvalue

theorem leading_of_end (hend : Json.skipBlanks behind = []) :
    Json.read text = .ok document ∧
      ofLeadingText text = (ofJson document).mapError .template := by
  have hfinish : Json.finish behind = .ok () := by
    rw [Json.finish, hend]
  constructor
  · rw [Json.read, Json.whole, hvalue]
    simp only [bind, Except.bind, hfinish]
    rfl
  · rw [ofLeadingText, hvalue]
    simp only [bind, Except.bind, Except.mapError, hfinish]
    cases ofJson document <;> rfl

theorem goesOn_of_more (hmore : Json.skipBlanks behind ≠ []) : GoesOn text document := by
  obtain ⟨front, hfront, hcomplete⟩ := Json.exists_front_of_leading hvalue
  exact ⟨front, behind, hfront, hcomplete, hvalue, hmore⟩

theorem leading_of_more (hmore : Json.skipBlanks behind ≠ []) :
    ∃ error, Json.read text = .error error ∧ error.fault = .trailingCharacters ∧
      ofLeadingText text = (ofJson document).mapError .template >>= fun _ =>
        .error (.text error) := by
  have hfinish : Json.finish behind = .error ⟨.trailingCharacters, Json.skipBlanks behind, 1⟩ := by
    unfold Json.finish
    split
    · rename_i hend
      exact (hmore hend).elim
    · rfl
  refine ⟨Json.Stop.locate ⟨.trailingCharacters, Json.skipBlanks behind, 1⟩ text.toList,
    ?_, rfl, ?_⟩
  · rw [Json.read, Json.whole, hvalue]
    simp only [bind, Except.bind, hfinish]
    rfl
  · rw [ofLeadingText, hvalue]
    simp only [bind, Except.bind, Except.mapError, hfinish]

end

theorem readings_agree (text : String) :
    (∀ t, (ofText text = .ok t ↔ ofDocumentText text = .ok t) ∧
      (ofLeadingText text = .ok t ↔ ofDocumentText text = .ok t)) ∧
    Readings text ((ofText text).mapError TemplateError.message)
      ((ofDocumentText text).mapError LeadingError.message)
      ((ofLeadingText text).mapError LeadingError.message) := by
  cases hvalue : Json.leading text.toList with
  | error stop =>
      have hread : Json.read text = .error (stop.locate text.toList) := by
        rw [Json.read, Json.whole, hvalue]
        rfl
      have hleading : ofLeadingText text = .error (.text (stop.locate text.toList)) := by
        rw [ofLeadingText, hvalue]
        rfl
      obtain ⟨htext, hdocument⟩ := readings_of_fault hread
      rw [htext, hdocument, hleading]
      refine ⟨by simp, .noDocument hread ?_⟩
      rintro document ⟨_, _, -, -, hother, -⟩
      cases hvalue.symm.trans hother
  | ok result =>
      obtain ⟨document, behind⟩ := result
      by_cases hend : Json.skipBlanks behind = []
      · obtain ⟨hread, hleading⟩ := leading_of_end hvalue hend
        obtain ⟨htext, hdocument⟩ := readings_of_read hread
        rw [htext, hdocument, hleading]
        cases hlayout : ofJson document with
        | ok t => exact ⟨by simp [Except.mapError], .template hread hlayout⟩
        | error error => exact ⟨by simp [Except.mapError], .noTemplate hread hlayout⟩
      · -- The fault behind the document is found by two of the readers before they look at the
        -- template, and by the third only once there is one.
        obtain ⟨error, hread, htrailing, hleading⟩ := leading_of_more hvalue hend
        obtain ⟨htext, hdocument⟩ := readings_of_fault hread
        rw [htext, hdocument, hleading]
        cases hlayout : ofJson document with
        | ok t =>
            refine ⟨by simp [Except.mapError, bind, Except.bind], .noDocument hread ?_⟩
            intro other hother
            rw [hother.eq_of_value hvalue]
            exact ⟨t, hlayout⟩
        | error templateError =>
            exact ⟨by simp [Except.mapError, bind, Except.bind],
              .bothFaults hread htrailing (goesOn_of_more hvalue hend) hlayout⟩

theorem readings_agree_faulty :
    Readings "[null] ]" (.error "template is not valid JSON: trailing characters at line 1 column 8")
      (.error "trailing characters at line 1 column 8")
      (.error "invalid template: path lists may only contain strings, found null") := by
  exact (readings_agree "[null] ]").2

end Reshape.Template
