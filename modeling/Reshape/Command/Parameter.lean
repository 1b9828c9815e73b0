/-!
The parameters of the command line.

A parameter is set by an option with a value, by a switch without one, or, in the case of the
issue key, by its place. Some may also be set by an environment variable, which an argument
overrides. Each subcommand has its own parameters; `verbose` may be given before it as well.
-/

namespace Reshape.Command

/-- What the command line can set. -/
inductive Parameter where
  | issueKey
  | fields
  | expand
  | input
  | template
  | legacy
  | raw
  | table
  | protocol
  | host
  | port
  | user
  | password
  | apiVersion
  | verbose
deriving DecidableEq

namespace Parameter

/-- The name of the option or switch that sets a parameter. -/
def option? : Parameter → Option String
  | .issueKey => none
  | .fields => some "fields"
  | .expand => some "expand"
  | .input => some "input"
  | .template => some "template"
  | .legacy => some "legacy"
  | .raw => some "raw"
  | .table => some "table"
  | .protocol => some "jira-protocol"
  | .host => some "jira-host"
  | .port => some "jira-port"
  | .user => some "jira-user"
  | .password => some "jira-password"
  | .apiVersion => some "jira-api-version"
  | .verbose => some "verbose"

/-- Whether a parameter is set by a switch, which takes no value. -/
def isSwitch : Parameter → Bool
  | .legacy | .raw | .table | .verbose => true
  | _ => false

/-- The environment variable that sets a parameter. -/
def environmentName? : Parameter → Option String
  | .issueKey => some "JIRA_ISSUE_KEY"
  | .protocol => some "JIRA_PROTOCOL"
  | .host => some "JIRA_HOST"
  | .port => some "JIRA_PORT"
  | .user => some "JIRA_USER"
  | .password => some "JIRA_PASSWORD"
  | .apiVersion => some "JIRA_API_VERSION"
  | .verbose => some "ISSUEPICK_VERBOSE"
  | _ => none

end Parameter

/-- The subcommands. -/
inductive Subcommand where
  | issue
  | project
  | template
deriving DecidableEq

namespace Subcommand

/-- The subcommand with a name. -/
def ofName? (name : String) : Option Subcommand :=
  if name = "issue" then some .issue
  else if name = "project" then some .project
  else if name = "template" then some .template
  else none

/-- The parameters of a subcommand, in the order in which the environment is asked for them. -/
def parameters : Subcommand → List Parameter
  | .issue =>
      [.issueKey, .fields, .expand, .template, .legacy, .raw, .table, .protocol, .host, .port,
        .user, .password, .apiVersion, .verbose]
  | .project => [.input, .template, .legacy, .table, .verbose]
  | .template => [.template, .legacy, .verbose]

/-- The parameter that an option or switch of a subcommand sets. -/
def parameter? (s : Subcommand) (option : String) : Option Parameter :=
  s.parameters.find? (·.option? = some option)

end Subcommand

/-- Why there is nothing to run: a request for help or for the version, or a fault in the
arguments or the environment. -/
inductive UsageError where
  | help
  | version
  | helpForNothing
  | subcommandMissing
  | subcommandUnknown
  | argumentUnknown
  | argumentRepeated
  | argumentMissing
  | valueInvalid
  | valueRefused
  | valueSurplus
deriving DecidableEq

/-- Reads a port: digits, perhaps behind a sign, for a number that fits sixteen bits. -/
def readPort? (text : String) : Option UInt16 :=
  let (negative, digits) :=
    match text.toList with
    | '-' :: rest => (true, rest)
    | '+' :: rest => (false, rest)
    | rest => (false, rest)
  let size := Nat.ofDigitChars 10 digits 0
  if digits.isEmpty || !digits.all Char.isDigit then none
  else if 0xFFFF < size || negative && size != 0 then none
  else some (UInt16.ofNat size)

/-- Checks the value of a parameter. A port has to be one, a file has to have a name, and a switch
is set by one of two words. -/
def Parameter.check (p : Parameter) (value : String) : Except UsageError Unit :=
  match p with
  | .port => if (readPort? value).isSome then .ok () else .error .valueRefused
  | .input | .template => if value = "" then .error .valueInvalid else .ok ()
  | .verbose => if value = "true" ∨ value = "false" then .ok () else .error .valueInvalid
  | _ => .ok ()

end Reshape.Command
