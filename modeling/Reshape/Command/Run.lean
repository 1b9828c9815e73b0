import Reshape.Command.Folder
import Reshape.Command.Invocation
import Reshape.Issue.Template
import Reshape.Table
import Reshape.Template.Project
import Reshape.Template.Text
import Reshape.Text.Plain

/-!
Running a command up to the moment when it would send a request.

A run gives what is written to standard output and standard error, and how it ends: it is done, it
has failed, or it has a request to send. Running reads files through a function of the
surroundings, and otherwise depends on nothing but them.

Records for a log are no part of what is written here. A run leaves one of the URL that it is about
to ask for, and a projection one for each entry that it skips (`Template.trace` lists these).
-/

namespace Reshape.Command

/-- What a run may look at besides its arguments. -/
structure Surroundings where
  environment : Environment
  contentsOf : String → Except FileFault ByteArray
  standardInput : ByteArray

/-- What a text that cannot be read was for. -/
inductive TextSource where
  | templateFile (path : String)
  | inputFile (path : String)
  | standardInput
deriving DecidableEq

/-- Why a run fails. -/
inductive Failure where
  | usage (error : UsageError)
  | config (error : Issue.ConfigError)
  | template (path : String) (error : TemplateError)
  | unreadable (source : TextSource) (fault : FileFault)
  | notDocument (error : Json.ReadError)
  | header (error : Issue.HeaderError)
  | notSent
deriving DecidableEq

/-- The messages of a failure, the outermost first. A usage error has none. -/
def Failure.chain : Failure → List String
  | .usage _ => []
  | .config error => ["Configuration error: " ++ error.message]
  | .template path error => ["Invalid template: " ++ path ++ ": " ++ error.message]
  | .unreadable (.templateFile path) fault => ["Failed to read template " ++ path, fault.message]
  | .unreadable (.inputFile path) fault => ["Failed to read input " ++ path, fault.message]
  | .unreadable .standardInput fault => ["Failed to read stdin", fault.message]
  | .notDocument error => ["Input is not valid JSON", error.message]
  | .header error => [error.message]
  | .notSent => ["Network error: Failed to send request to Jira: builder error"]

/-- A request for an issue, and what to do with the answer. -/
structure Request where
  url : String
  authorization : String
  accept : String
  template : Template
  raw : Bool
  table : Bool
deriving DecidableEq

/-- How a run ends. -/
inductive Ending where
  | done
  | failed (failure : Failure)
  | request (request : Request)
deriving DecidableEq

/-- What a run has written, and how it ends. -/
structure Outcome where
  standardOutput : String
  standardError : String
  ending : Ending
deriving DecidableEq

/-- A result as it is printed: as a table, when that is asked for and it is a mapping, and else as
a document. -/
def printed (value : Json) (table : Bool) : String :=
  match value, table with
  | .obj members, true => Table.render members
  | value, _ => Text.plain [value.pretty, "\n"]

/-- A line of a report, in pieces, when reports are asked for. -/
def report (verbose : Bool) (pieces : List String) : String :=
  if verbose then Text.plain (pieces ++ ["\n"]) else ""

/-- Loads the chosen template. -/
def TemplateChoice.load (choice : TemplateChoice) (surroundings : Surroundings) :
    Except Failure Template :=
  match choice.file? with
  | none => .ok Issue.template
  | some path => do
      let text ← (surroundings.contentsOf path >>= decodeText).mapError
        (.unreadable (.templateFile path))
      let read := if choice.legacy then Template.legacyOfText text else Template.ofText text
      read.mapError (.template path)

/-- Reads the document that is to be projected. -/
def readInput (input? : Option String) (surroundings : Surroundings) : Except Failure Json := do
  let text ←
    match input? with
    | some path =>
        (surroundings.contentsOf path >>= decodeText).mapError (.unreadable (.inputFile path))
    | none => (decodeText surroundings.standardInput).mapError (.unreadable .standardInput)
  (Json.read text).mapError .notDocument

/-- Prints a template in its canonical layout. -/
def runTemplate (choice : TemplateChoice) (verbose : Bool) (surroundings : Surroundings) :
    Outcome :=
  let reported := report verbose ["Template: ", choice.file?.getD "built-in issue template"]
  match choice.load surroundings with
  | .error failure => ⟨"", reported, .failed failure⟩
  | .ok template => ⟨printed template.toJson false, reported, .done⟩

/-- Projects a document and prints the result. -/
def runProject (options : ProjectOptions) (verbose : Bool) (surroundings : Surroundings) :
    Outcome :=
  let loaded := do
    let template ← options.template.load surroundings
    return (template, ← readInput options.input? surroundings)
  match loaded with
  | .error failure => ⟨"", "", .failed failure⟩
  | .ok (template, source) =>
      ⟨printed (template.project source) options.table,
        report verbose
          ["Projecting through ", toString template.length, " template entries"],
        .done⟩

/-- Whether a URL starts with the name of a scheme, without which nothing can be sent. No more is
looked at: a URL with an empty host, or with a blank in it, is not sent either, and passes here. -/
def hasScheme (url : String) : Bool :=
  match url.toList.takeWhile (· ≠ ':') with
  | [] => false
  | c :: rest =>
      c.isAlpha && rest.all (fun c => c.isAlphanum || c = '+' || c = '-' || c = '.')

/-- What is settled before an issue can be asked for: where it is, and how to reshape it. -/
def prepareIssue (options : IssueOptions) (surroundings : Surroundings) :
    Except Failure (Issue.Connection × Template) := do
  if Text.isBlank options.key then .error (.config .keyBlank)
  let connection ← options.settings.connection.mapError .config
  return (connection, ← options.template.load surroundings)

/-- Prepares the request for an issue. The record that names its URL in a log is left out. -/
def runIssue (options : IssueOptions) (verbose : Bool) (surroundings : Surroundings) : Outcome :=
  match prepareIssue options surroundings with
  | .error failure => ⟨"", "", .failed failure⟩
  | .ok (connection, template) =>
      let reported := report verbose ["Fetching ", options.key, " from ", connection.root]
      match connection.headers Issue.isHeaderValue with
      | .error error => ⟨"", reported, .failed (.header error)⟩
      | .ok headers =>
          let url := Issue.url connection.root options.key options.query
          let request : Request :=
            ⟨url, headers.authorization, headers.accept, template, options.raw, options.table⟩
          ⟨"", reported, if hasScheme url then .request request else .failed .notSent⟩

/-- The files that a task reads. -/
def Task.files : Task → List String
  | .issue options => options.template.file?.toList
  | .project options => options.template.file?.toList ++ options.input?.toList
  | .template choice => choice.file?.toList

/-- Whether a task reads standard input. -/
def Task.readsInput : Task → Bool
  | .project options => options.input?.isNone
  | .issue _ | .template _ => false

/-- Runs an invocation. -/
def Invocation.run (invocation : Invocation) (surroundings : Surroundings) : Outcome :=
  match invocation.task with
  | .issue options => runIssue options invocation.verbose surroundings
  | .project options => runProject options invocation.verbose surroundings
  | .template choice => runTemplate choice invocation.verbose surroundings

/-- Runs the command with its arguments. -/
def run (arguments : List String) (surroundings : Surroundings) : Outcome :=
  match Invocation.read arguments surroundings.environment with
  | .error error => ⟨"", "", .failed (.usage error)⟩
  | .ok invocation => invocation.run surroundings

end Reshape.Command
