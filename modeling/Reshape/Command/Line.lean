import Reshape.Command.Parameter

/-!
Reading the arguments of the command line.

Arguments are read from left to right. An option takes its value from behind an equals sign or
from the argument after it, as long as that one does not look like an option itself; behind a
double dash nothing does. An option or a positional argument stays open until the next argument
that sets something, or the end, closes it; only then is its value checked. So of two faults the
earlier one is reported, except that an argument that is not known at all is reported at once.
-/

namespace Reshape.Command

/-- The form of an argument. -/
inductive Form where
  | doubleDash
  | long (name : String) (value? : Option String)
  | short (letters : List Char)
  | plain

/-- The name of an option and its value, divided at the first equals sign. -/
def nameAndValue (text : List Char) : String × Option String :=
  let name := text.takeWhile (· ≠ '=')
  match text.dropWhile (· ≠ '=') with
  | [] => (String.ofList name, none)
  | _ :: value => (String.ofList name, some (String.ofList value))

/-- The form of an argument. A single dash is a plain one. -/
def Form.of (argument : String) : Form :=
  match argument.toList with
  | ['-', '-'] => .doubleDash
  | '-' :: '-' :: rest => let (name, value?) := nameAndValue rest; .long name value?
  | '-' :: letter :: letters => .short (letter :: letters)
  | _ => .plain

/-- What the arguments have set so far, in order. -/
abbrev Given := List (Parameter × String)

/-- Where the reading of a subcommand's arguments stands: what is set, the parameter that is still
open with its value if that has come, and whether a double dash has. -/
structure Progress where
  given : Given
  pending : Option (Parameter × Option String)
  trailing : Bool

/-- The state before the first argument. -/
def Progress.start : Progress :=
  ⟨[], none, false⟩

/-- Sets a parameter that is not set yet to a value that passes its check. -/
def setOnce (given : Given) (p : Parameter) (value : String) : Except UsageError Given :=
  if (given.lookup p).isSome then .error .argumentRepeated
  else do
    p.check value
    return given ++ [(p, value)]

namespace Progress

/-- Closes the open parameter. -/
def settle (progress : Progress) : Except UsageError Given :=
  match progress.pending with
  | none => .ok progress.given
  | some (_, none) => .error .valueInvalid
  | some (p, some value) => setOnce progress.given p value

/-- Opens a parameter once the one before it is closed. -/
def openWith (progress : Progress) (p : Parameter) (value? : Option String) :
    Except UsageError Progress := do
  return { progress with given := ← progress.settle, pending := some (p, value?) }

/-- Sets a parameter once the one before it is closed. -/
def assign (progress : Progress) (p : Parameter) (value : String) :
    Except UsageError Progress := do
  return { progress with given := ← setOnce (← progress.settle) p value, pending := none }

/-- Gives up with an error once the open parameter is closed. -/
def abort (progress : Progress) (error : UsageError) : Except UsageError Progress := do
  let _ ← progress.settle
  .error error

/-- Whether the issue key has come. -/
def hasIssueKey (progress : Progress) : Bool :=
  (progress.given.lookup .issueKey).isSome || (progress.pending.map Prod.fst) == some .issueKey

/-- Takes an argument by its place. Only an issue key has one, and only once. -/
def positional (s : Subcommand) (progress : Progress) (argument : String) :
    Except UsageError Progress :=
  if .issueKey ∈ s.parameters ∧ progress.hasIssueKey = false then
    progress.openWith .issueKey (some argument)
  else .error .argumentUnknown

/-- Takes an argument with two dashes in front. -/
def long (s : Subcommand) (progress : Progress) (name : String) (value? : Option String) :
    Except UsageError Progress :=
  if name = "help" then
    if value?.isSome then .error .valueSurplus else progress.abort .help
  else
    match s.parameter? name with
    | none => .error .argumentUnknown
    | some p =>
        match p.isSwitch, value? with
        | true, some _ => .error .valueSurplus
        | true, none => progress.assign p "true"
        | false, some value => progress.assign p value
        | false, none => progress.openWith p none

/-- Takes the next argument of a subcommand. -/
def take (s : Subcommand) (progress : Progress) (argument : String) :
    Except UsageError Progress :=
  if progress.trailing then progress.positional s argument
  else
    match Form.of argument with
    | .doubleDash => .ok { progress with trailing := true }
    | .long name value? => progress.long s name value?
    | .short letters =>
        if letters.head? = some 'h' then progress.abort .help else .error .argumentUnknown
    | .plain =>
        match progress.pending with
        | some (p, none) => .ok { progress with pending := some (p, some argument) }
        | _ => progress.positional s argument

end Progress

/-- What the arguments of a subcommand set. -/
def readArguments (s : Subcommand) (arguments : List String) : Except UsageError Given := do
  (← arguments.foldlM (·.take s) Progress.start).settle

/-- What stands before a subcommand and which one it is, with the arguments behind it. Without a
subcommand there is nothing behind either. -/
structure Front where
  verbose : Bool
  subcommand? : Option (Subcommand × List String)

/-- The outcome of a request for help: every word must name a subcommand, and a subcommand has no
further ones. -/
def helpOutcome : List String → UsageError
  | [] => .help
  | [name] =>
      if name = "help" ∨ (Subcommand.ofName? name).isSome then .help else .subcommandUnknown
  | _ => .subcommandUnknown

/-- Reads the arguments up to the subcommand. Behind a double dash there can be none any more, and
a word that would name one is no known argument. -/
def readFront (verbose trailing : Bool) : List String → Except UsageError Front
  | [] => .ok ⟨verbose, none⟩
  | argument :: rest =>
      if trailing then
        if argument = "help" ∨ (Subcommand.ofName? argument).isSome then .error .argumentUnknown
        else .error .subcommandUnknown
      else if argument = "help" then .error (helpOutcome rest)
      else
        match Subcommand.ofName? argument with
        | some s => .ok ⟨verbose, some (s, rest)⟩
        | none =>
            match Form.of argument with
            | .doubleDash => readFront verbose true rest
            | .long name value? =>
                if name ∉ ["help", "version", "verbose"] then .error .argumentUnknown
                else if value?.isSome then .error .valueSurplus
                else if name = "help" then .error .help
                else if name = "version" then .error .version
                else if verbose then .error .argumentRepeated
                else readFront true trailing rest
            | .short letters =>
                match letters with
                | 'h' :: _ => .error .help
                | 'V' :: _ => .error .version
                | _ => .error .argumentUnknown
            | .plain => .error .subcommandUnknown

end Reshape.Command
