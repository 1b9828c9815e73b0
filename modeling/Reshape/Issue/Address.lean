import Reshape.Web.PercentEncoding

/-!
The address of an issue.

An issue is served below the root of an interface, at a URL that ends in its percent-encoded key
and, when there is something to ask for, a query. Separators at the ends of the settings that make
up the root do not matter.
-/

namespace Reshape.Issue

/-- A text without the characters at its end that have a property. -/
def dropEndWhile (property : Char → Bool) (text : List Char) : List Char :=
  (text.reverse.dropWhile property).reverse

/-- A reversed text without the reversed separators `://` at its front. -/
def dropSeparators : List Char → List Char
  | '/' :: '/' :: ':' :: rest => dropSeparators rest
  | rest => rest

/-- A protocol without the separators at its end. -/
def bareProtocol (protocol : String) : List Char :=
  (dropSeparators protocol.toList.reverse).reverse

/-- A text without the slashes at its end. -/
def withoutEndSlashes (text : String) : List Char :=
  dropEndWhile (· = '/') text.toList

/-- A text without the slashes at either end. -/
def withoutSlashes (text : String) : List Char :=
  (dropEndWhile (· = '/') text.toList).dropWhile (· = '/')

/-- The root of the interface of a version at a host and port. -/
def apiRoot (protocol host : String) (port : UInt16) (version : String) : String :=
  String.ofList (bareProtocol protocol) ++ "://" ++ String.ofList (withoutEndSlashes host) ++
    ":" ++ toString port.toNat ++ "/rest/api/" ++ String.ofList (withoutSlashes version)

/-- What a request may ask for: the fields to be sent, and the entities to be expanded. -/
structure Query where
  fields : Option String
  expand : Option String
deriving DecidableEq

/-- The parameter with a name, unless its value is missing or empty. -/
def parameter? (name : String) (value? : Option String) : Option (List Char) :=
  match value? with
  | none => none
  | some value =>
      if value = "" then none
      else some (name.toList ++ '=' :: Web.PercentEncoding.encode value)

/-- The parameters of a query that have a value. -/
def Query.parameters (query : Query) : List (List Char) :=
  [parameter? "fields" query.fields, parameter? "expand" query.expand].reduceOption

/-- The query as it stands in a URL, if it asks for anything. -/
def Query.text? (query : Query) : Option String :=
  match query.parameters with
  | [] => none
  | parameters => some (String.ofList (['&'].intercalate parameters))

/-- The URL of an issue. -/
def url (root issue : String) (query : Query) : String :=
  let resource :=
    String.ofList (withoutEndSlashes root) ++ "/issue/" ++
      String.ofList (Web.PercentEncoding.encode issue)
  match query.text? with
  | some text => resource ++ "?" ++ text
  | none => resource

end Reshape.Issue
