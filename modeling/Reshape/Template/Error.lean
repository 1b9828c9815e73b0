import Reshape.Json.Fault
import Reshape.Template

/-!
Why a document or a text is no template.
-/

namespace Reshape

/-- What is wrong with one entry of a template. -/
inductive EntryFault where
  | notEntry (kind : Json.Kind)
  | notLegacyEntry (kind : Json.Kind)
  | unknownProperty (name : String)
  | missingProperty (name : String)
  | notString (name : String) (kind : Json.Kind)
  | levelShared
deriving DecidableEq

/-- The wording of an entry's fault. -/
def EntryFault.message : EntryFault → String
  | .notEntry kind => "expected a path string or a node object, found " ++ kind.name
  | .notLegacyEntry kind => "expected an output path or a node object, found " ++ kind.name
  | .unknownProperty name => "unknown property `" ++ name ++ "`"
  | .missingProperty name => "missing `" ++ name ++ "`"
  | .notString name kind => "`" ++ name ++ "` must be a string, found " ++ kind.name
  | .levelShared => "an entry targeting `-` must be the only entry at its level"

/-- Why a document is of no shape that a template has. -/
inductive ShapeFault where
  | notTemplate (kind : Json.Kind)
  | notLegacyTemplate (kind : Json.Kind)
  | notPath (kind : Json.Kind)
deriving DecidableEq

/-- The wording of a fault of shape. -/
def ShapeFault.message : ShapeFault → String
  | .notTemplate kind => "expected an object or an array of paths, found " ++ kind.name
  | .notLegacyTemplate kind =>
      "legacy templates are objects keyed by source path, found " ++ kind.name
  | .notPath kind => "path lists may only contain strings, found " ++ kind.name

/-- Why there is no template: a text in it is no path, an entry or the whole is at fault, or the
text is no document in the first place. -/
inductive TemplateError where
  | path (error : PathError)
  | entry (key : String) (fault : EntryFault)
  | shape (fault : ShapeFault)
  | text (error : Json.ReadError)
deriving DecidableEq

/-- The wording of a template error. -/
def TemplateError.message : TemplateError → String
  | .path error => error.message
  | .entry key fault => "invalid template node `" ++ key ++ "`: " ++ fault.message
  | .shape fault => "invalid template: " ++ fault.message
  | .text error => "template is not valid JSON: " ++ error.message

/-- Reads a path inside a template. -/
def Path.parseIn (text : String) : Except TemplateError Path :=
  (Path.parse text).mapError .path

/-- Reads a target inside a template. -/
def Target.parseIn (text : String) : Except TemplateError Target :=
  (Target.parse text).mapError .path

namespace Template

/-- Reads the items of a list of paths. -/
def readPaths : List Json → Except TemplateError (List Path)
  | [] => .ok []
  | .str text :: rest => do return (← Path.parseIn text) :: (← readPaths rest)
  | other :: _ => .error (.shape (.notPath other.kind))

/-- Checks that an entry whose target is the level has it to itself, and else names the first
such entry. -/
def checkLevel (entries : List Entry) : Except TemplateError (List Entry) :=
  match entries.find? (·.target.isLevel) with
  | some entry =>
      if 1 < entries.length then .error (.entry entry.output.text .levelShared) else .ok entries
  | none => .ok entries

end Template

end Reshape
