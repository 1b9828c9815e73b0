import Reshape.Issue.Address
import Reshape.Text.Blank
import Reshape.Text.Quoted
import Reshape.Web.Base64

/-!
Connections to the service that holds the issues.

`Settings` are what a user has set, and `Settings.connection` checks that nothing that must be set
is missing or blank. A connection knows the root of its interface and the two headers that a
request carries. Its description for diagnostics never shows the password.
-/

namespace Reshape.Issue

/-- The settings that have no default. -/
inductive RequiredSetting where
  | host
  | user
  | password
deriving DecidableEq

/-- The name under which a required setting is known. -/
def RequiredSetting.name : RequiredSetting → String
  | .host => "JIRA_HOST"
  | .user => "JIRA_USER"
  | .password => "JIRA_PASSWORD"

/-- What is wrong with a request before anything is sent. -/
inductive ConfigError where
  | keyBlank
  | missing (settings : List RequiredSetting)
deriving DecidableEq

/-- The wording of a configuration error. -/
def ConfigError.message : ConfigError → String
  | .keyBlank => "an issue key is required"
  | .missing settings =>
      "missing " ++ String.intercalate ", " (settings.map (·.name)) ++
        ". Recognized settings: JIRA_PROTOCOL, JIRA_PORT, JIRA_API_VERSION, *JIRA_HOST, " ++
        "*JIRA_USER, *JIRA_PASSWORD (* - required)"

/-- Why a request has no headers. -/
inductive HeaderError where
  | valueInvalid
deriving DecidableEq

/-- The wording of a header error. -/
def HeaderError.message : HeaderError → String
  | .valueInvalid => "Invalid header value: failed to parse header value"

/-- The settings of a connection as they were given. -/
structure Settings where
  protocol : String
  host : Option String
  port : UInt16
  user : Option String
  password : Option String
  apiVersion : String
deriving DecidableEq

/-- The protocol when none is set. -/
def defaultProtocol : String := "https"

/-- The port when none is set. -/
def defaultPort : UInt16 := 443

/-- The version of the interface when none is set. -/
def defaultApiVersion : String := "2"

/-- A connection to the service. -/
structure Connection where
  protocol : String
  host : String
  port : UInt16
  user : String
  password : String
  apiVersion : String
deriving DecidableEq

/-- A setting that is there and not blank. -/
def filled? (setting : Option String) : Option String :=
  setting.filter fun value => !Text.isBlank value

/-- A required setting, when its value is not there. -/
def missing? (name : RequiredSetting) (value : Option String) : Option RequiredSetting :=
  match value with
  | none => some name
  | some _ => none

/-- The connection that settings describe, if every required one is there and not blank. -/
def Settings.connection (s : Settings) : Except ConfigError Connection :=
  match filled? s.host, filled? s.user, filled? s.password with
  | some host, some user, some password =>
      .ok ⟨s.protocol, host, s.port, user, password, s.apiVersion⟩
  | host, user, password =>
      .error (.missing
        [missing? .host host, missing? .user user, missing? .password password].reduceOption)

/-- The value of the accept header. -/
def acceptedType : String := "application/json"

/-- The values of the headers that a request carries. -/
structure Headers where
  authorization : String
  accept : String
deriving DecidableEq

/-- Whether a text may be the value of a header: blanks and the visible characters of ASCII may
stand in one. -/
def isHeaderValue (text : String) : Bool :=
  text.toList.all fun c => c = '\t' || (0x20 ≤ c.toNat && c.toNat < 0x7F)

namespace Connection

/-- The root of the interface. -/
def root (c : Connection) : String :=
  apiRoot c.protocol c.host c.port c.apiVersion

/-- The value of the authorization header: the user and the password in base64. -/
def authorization (c : Connection) : String :=
  "Basic " ++
    String.ofList (Web.Base64.encode (Web.utf8 (c.user ++ ":" ++ c.password)))

/-- The headers of a request, as long as the credentials make a value that a header may have. -/
def headers (isValue : String → Bool) (c : Connection) : Except HeaderError Headers :=
  if isValue c.authorization then .ok ⟨c.authorization, acceptedType⟩ else .error .valueInvalid

/-- The description of a connection, which does not show the password. -/
def description (c : Connection) : String :=
  "JiraConfig \x7b protocol: " ++ Text.quoted c.protocol ++
    ", host: " ++ Text.quoted c.host ++
    ", port: " ++ toString c.port.toNat ++
    ", user: " ++ Text.quoted c.user ++
    ", password: " ++ Text.quoted "<redacted>" ++
    ", api_version: " ++ Text.quoted c.apiVersion ++ " \x7d"

end Connection

end Reshape.Issue
