import Reshape.Command.Line
import Reshape.Issue.Connection

/-!
Invocations: what the arguments and the environment together ask for.

An environment variable counts for a parameter that the arguments of the subcommand do not set. Of
the faults in an invocation those in the arguments come first, then those in the values of
variables, and what is missing comes last.
-/

namespace Reshape.Command

/-- The environment variables that are set. -/
abbrev Environment := List (String × String)

/-- Which template to use: the one in a file, in either layout, or that for issues. -/
structure TemplateChoice where
  file? : Option String
  legacy : Bool
deriving DecidableEq

/-- What the subcommand `issue` is asked for. -/
structure IssueOptions where
  key : String
  query : Issue.Query
  template : TemplateChoice
  raw : Bool
  table : Bool
  settings : Issue.Settings
deriving DecidableEq

/-- What the subcommand `project` is asked for. -/
structure ProjectOptions where
  input? : Option String
  template : TemplateChoice
  table : Bool
deriving DecidableEq

/-- What a subcommand is asked for. -/
inductive Task where
  | issue (options : IssueOptions)
  | project (options : ProjectOptions)
  | template (choice : TemplateChoice)
deriving DecidableEq

/-- A task, and whether its progress is to be reported. -/
structure Invocation where
  verbose : Bool
  task : Task
deriving DecidableEq

/-- The value of the environment variable for a parameter. -/
def Environment.value? (environment : Environment) (p : Parameter) : Option String :=
  p.environmentName?.bind fun name => environment.lookup name

/-- Adds the values of environment variables for the parameters that are not set. -/
def complete (environment : Environment) : List Parameter → Given → Except UsageError Given
  | [], given => .ok given
  | p :: rest, given =>
      match given.lookup p, Environment.value? environment p with
      | none, some value => do
          p.check value
          complete environment rest (given ++ [(p, value)])
      | _, _ => complete environment rest given

/-- Checks that an issue key is there where one is called for, and a file where its layout is
named. -/
def checkComplete (s : Subcommand) (given : Given) : Except UsageError Unit :=
  if .issueKey ∈ s.parameters ∧ (given.lookup .issueKey).isNone then .error .argumentMissing
  else if (given.lookup .legacy).isSome ∧ (given.lookup .template).isNone then
    .error .argumentMissing
  else .ok ()

/-- Checks the environment variable that asks for reports. -/
def checkVerboseVariable (environment : Environment) : Except UsageError Unit :=
  match Environment.value? environment .verbose with
  | some value => Parameter.check .verbose value
  | none => .ok ()

namespace Given

/-- Whether a switch is on. -/
def isOn (given : Given) (p : Parameter) : Bool :=
  given.lookup p == some "true"

/-- The template that is chosen. -/
def templateChoice (given : Given) : TemplateChoice :=
  ⟨given.lookup .template, isOn given .legacy⟩

/-- The settings of a connection. -/
def settings (given : Given) : Issue.Settings where
  protocol := (given.lookup .protocol).getD Issue.defaultProtocol
  host := given.lookup .host
  port := ((given.lookup .port).bind readPort?).getD Issue.defaultPort
  user := given.lookup .user
  password := given.lookup .password
  apiVersion := (given.lookup .apiVersion).getD Issue.defaultApiVersion

/-- The task of a subcommand. -/
def task (given : Given) : Subcommand → Task
  | .issue =>
      .issue {
        key := (given.lookup .issueKey).getD ""
        query := ⟨given.lookup .fields, given.lookup .expand⟩
        template := templateChoice given
        raw := isOn given .raw
        table := isOn given .table
        settings := settings given }
  | .project => .project ⟨given.lookup .input, templateChoice given, isOn given .table⟩
  | .template => .template (templateChoice given)

end Given

/-- What arguments and environment ask for. -/
def Invocation.read (arguments : List String) (environment : Environment) :
    Except UsageError Invocation := do
  let front ← readFront false false arguments
  match front.subcommand? with
  | none => do
      if !front.verbose then checkVerboseVariable environment
      if front.verbose || (Environment.value? environment .verbose).isSome then
        .error .subcommandMissing
      else .error .helpForNothing
  | some (s, rest) => do
      let given ← complete environment s.parameters (← readArguments s rest)
      checkComplete s given
      if !front.verbose then checkVerboseVariable environment
      return ⟨front.verbose || Given.isOn given .verbose, Given.task given s⟩

end Reshape.Command
