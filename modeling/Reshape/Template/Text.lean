import Reshape.Json.Reader
import Reshape.Template.Canonical
import Reshape.Template.Legacy

/-!
Templates in text.

`ofText` and `legacyOfText` read the text of a document whole and a template out of it.
`ofLeadingText` looks at the template as soon as the document is read and only then at what is
behind it, so on a text with both faults it reports the one in the template.
-/

namespace Reshape

/-- Why a text is no template when a template is looked for as the document is read. -/
inductive LeadingError where
  | text (error : Json.ReadError)
  | template (error : TemplateError)
deriving DecidableEq

/-- The wording of the error: that of the fault alone. -/
def LeadingError.message : LeadingError → String
  | .text error => error.message
  | .template error => error.message

namespace Template

/-- Reads a template from a text in its canonical layout. -/
def ofText (text : String) : Except TemplateError Template := do
  ofJson (← (Json.read text).mapError .text)

/-- Reads a template from a text in its legacy layout. -/
def legacyOfText (text : String) : Except TemplateError Template := do
  ofLegacy (← (Json.read text).mapError .text)

/-- Reads a template in its canonical layout from the document at the front of a text, and then
checks that nothing follows. -/
def ofLeadingText (text : String) : Except LeadingError Template := do
  let located (stop : Json.Stop) := LeadingError.text (stop.locate text.toList)
  let (document, rest) ← (Json.leading text.toList).mapError located
  let template ← (ofJson document).mapError .template
  (Json.finish rest).mapError located
  return template

end Template

end Reshape
