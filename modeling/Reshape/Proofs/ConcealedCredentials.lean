import Reshape.Command.Run
import Reshape.Proofs.AuthorizationHeader

/-!
What a run shows of the credentials in the environment.

Two environments with other credentials, none of them blank, set the same parameters, and but for
the user and the password to the same values (`AlikeGiven`). So they end with the same fault or ask
for the same, and what is written and sent is the same as well, the authorization header apart
(`run_conceals_credentials`).
-/

namespace Reshape.Command

/-- Two results of which one follows the other: the same fault, or values that are related. -/
inductive Tracks {α β ε : Type} (related : α → β → Prop) : Except ε α → Except ε β → Prop
  | fault (error : ε) : Tracks related (.error error) (.error error)
  | value {a : α} {b : β} (h : related a b) : Tracks related (.ok a) (.ok b)

namespace Tracks

variable {α β ε : Type}

theorem refl {related : α → α → Prop} (hrefl : ∀ a, related a a) (result : Except ε α) :
    Tracks related result result := by
  cases result with
  | error error => exact .fault error
  | ok value => exact .value (hrefl value)

theorem of_eq {result other : Except ε α} (h : result = other) : Tracks (· = ·) result other :=
  h ▸ refl (fun _ => rfl) result

theorem bind {γ δ : Type} {related : α → β → Prop} {related' : γ → δ → Prop}
    {result : Except ε α} {other : Except ε β} {f : α → Except ε γ} {g : β → Except ε δ}
    (h : Tracks related result other) (hnext : ∀ a b, related a b → Tracks related' (f a) (g b)) :
    Tracks related' (result >>= f) (other >>= g) := by
  cases h with
  | fault error => exact .fault error
  | value h => exact hnext _ _ h

theorem mapError {ε' : Type} {related : α → β → Prop} {result : Except ε α} {other : Except ε β}
    (h : Tracks related result other) (f : ε → ε') :
    Tracks related (result.mapError f) (other.mapError f) := by
  cases h with
  | fault error => exact .fault (f error)
  | value h => exact .value h

end Tracks

/-! ### What is given -/

def IsFilled (setting : Option String) : Prop :=
  (Issue.filled? setting).isSome = true

instance (setting : Option String) : Decidable (IsFilled setting) :=
  inferInstanceAs (Decidable (_ = true))

/-- Two settings that are the same, or both there and not blank. -/
def AlikeSetting (setting other : Option String) : Prop :=
  setting = other ∨ IsFilled setting ∧ IsFilled other

def Parameter.isCredential : Parameter → Bool
  | .user | .password => true
  | _ => false

theorem Parameter.check_of_isCredential {p : Parameter} (hp : p.isCredential = true)
    (value : String) : p.check value = .ok () := by
  cases p with
  | user | password => rfl
  | _ => cases hp

/-- Two environments that differ at most in the credentials, which both have set. -/
structure SameBesidesCredentials (environment other : Environment) : Prop where
  others : ∀ name, name ≠ "JIRA_USER" → name ≠ "JIRA_PASSWORD" →
    environment.lookup name = other.lookup name
  user : IsFilled (environment.lookup "JIRA_USER") ∧ IsFilled (other.lookup "JIRA_USER")
  password : IsFilled (environment.lookup "JIRA_PASSWORD") ∧
    IsFilled (other.lookup "JIRA_PASSWORD")

/-- Two lists of what is set, alike but for the values of the credentials. -/
structure AlikeGiven (given other : Given) : Prop where
  others : ∀ p, p.isCredential = false → given.lookup p = other.lookup p
  credentials : ∀ p, p.isCredential = true → AlikeSetting (given.lookup p) (other.lookup p)

theorem IsFilled.exists_some {setting : Option String} (h : IsFilled setting) :
    ∃ value, setting = some value := by
  cases setting with
  | none => cases h
  | some value => exact ⟨value, rfl⟩

theorem AlikeSetting.eq_none {setting other : Option String} (h : AlikeSetting setting other)
    (hnone : setting = none) : other = none := by
  rcases h with rfl | ⟨hfilled, -⟩
  · exact hnone
  · subst setting
    cases hfilled

theorem AlikeSetting.symm {setting other : Option String} (h : AlikeSetting setting other) :
    AlikeSetting other setting := by
  rcases h with rfl | ⟨hfilled, hfilled'⟩
  · exact .inl rfl
  · exact .inr ⟨hfilled', hfilled⟩

theorem AlikeSetting.or {setting other second second' : Option String}
    (h : AlikeSetting setting other) (hsecond : AlikeSetting second second') :
    AlikeSetting (setting.or second) (other.or second') := by
  rcases h with rfl | ⟨hfilled, hfilled'⟩
  · cases setting with
    | none => exact hsecond
    | some value => exact .inl rfl
  · obtain ⟨value, rfl⟩ := hfilled.exists_some
    obtain ⟨value', rfl⟩ := hfilled'.exists_some
    exact .inr ⟨hfilled, hfilled'⟩

namespace AlikeGiven

variable {given other : Given}

theorem refl (given : Given) : AlikeGiven given given :=
  ⟨fun _ _ => rfl, fun _ _ => .inl rfl⟩

theorem alikeSetting (h : AlikeGiven given other) (p : Parameter) :
    AlikeSetting (given.lookup p) (other.lookup p) := by
  cases hp : p.isCredential with
  | false => exact .inl (h.others p hp)
  | true => exact h.credentials p hp

theorem append (h : AlikeGiven given other) {added added' : Given}
    (hadded : AlikeGiven added added') : AlikeGiven (given ++ added) (other ++ added') := by
  constructor
  · intro p hp
    rw [List.lookup_append, List.lookup_append, h.others p hp, hadded.others p hp]
  · intro p hp
    rw [List.lookup_append, List.lookup_append]
    exact (h.credentials p hp).or (hadded.credentials p hp)

end AlikeGiven

theorem lookup_singleton (p q : Parameter) (value : String) :
    List.lookup q [(p, value)] = if q = p then some value else none := by
  rw [List.lookup_cons]
  by_cases h : q = p
  · rw [if_pos h, beq_iff_eq.2 h]
  · rw [if_neg h, beq_eq_false_iff_ne.2 h]
    rfl

theorem alikeGiven_singleton {p : Parameter} (hp : p.isCredential = true) {value value' : String}
    (h : IsFilled (some value)) (h' : IsFilled (some value')) :
    AlikeGiven [(p, value)] [(p, value')] := by
  constructor
  · intro q hq
    rw [lookup_singleton, lookup_singleton, if_neg, if_neg]
    all_goals
      rintro rfl
      rw [hp] at hq
      cases hq
  · intro q hq
    rw [lookup_singleton, lookup_singleton]
    split
    · exact .inr ⟨h, h'⟩
    · exact .inl rfl

section

variable {environment other : Environment} (h : SameBesidesCredentials environment other)

include h

theorem value?_eq {p : Parameter} (hp : p.isCredential = false) :
    Environment.value? environment p = Environment.value? other p := by
  cases p with
  | user | password => cases hp
  | fields | expand | input | template | legacy | raw | table => rfl
  | issueKey | protocol | host | port | apiVersion | verbose =>
      exact h.others _ (by decide) (by decide)

theorem isFilled_value? {p : Parameter} (hp : p.isCredential = true) :
    IsFilled (Environment.value? environment p) ∧ IsFilled (Environment.value? other p) := by
  cases p with
  | user => exact h.user
  | password => exact h.password
  | _ => cases hp

theorem complete_tracks (parameters : List Parameter) {given given' : Given}
    (hgiven : AlikeGiven given given') :
    Tracks AlikeGiven (complete environment parameters given)
      (complete other parameters given') := by
  induction parameters generalizing given given' with
  | nil => exact .value hgiven
  | cons p rest ih =>
      rw [complete, complete]
      cases hset : given.lookup p with
      | some value =>
          cases hset' : given'.lookup p with
          | some value' => exact ih hgiven
          | none =>
              rw [(hgiven.alikeSetting p).symm.eq_none hset'] at hset
              cases hset
      | none =>
          rw [(hgiven.alikeSetting p).eq_none hset]
          cases hp : p.isCredential with
          | false =>
              rw [value?_eq h hp]
              cases hvalue : Environment.value? other p with
              | none => exact ih hgiven
              | some value =>
                  exact (Tracks.of_eq rfl).bind fun _ _ _ => ih (hgiven.append (.refl _))
          | true =>
              -- Both environments have a value, and both values pass: a credential has no check.
              obtain ⟨hfilled, hfilled'⟩ := isFilled_value? h hp
              obtain ⟨value, hvalue⟩ := hfilled.exists_some
              obtain ⟨value', hvalue'⟩ := hfilled'.exists_some
              rw [hvalue] at hfilled ⊢
              rw [hvalue'] at hfilled' ⊢
              simp only [Parameter.check_of_isCredential hp]
              exact ih (hgiven.append (alikeGiven_singleton hp hfilled hfilled'))

end

/-! ### What is asked for -/

/-- Two settings of a connection that are alike but for the credentials. -/
structure AlikeSettings (settings other : Issue.Settings) : Prop where
  others : { settings with user := other.user, password := other.password } = other
  user : AlikeSetting settings.user other.user
  password : AlikeSetting settings.password other.password

/-- Two tasks that ask for the same, if with other credentials. -/
inductive AlikeTask : Task → Task → Prop
  | same (task : Task) : AlikeTask task task
  | issue (options : IssueOptions) {other : Issue.Settings}
      (h : AlikeSettings options.settings other) :
      AlikeTask (.issue options) (.issue { options with settings := other })

structure AlikeInvocation (invocation other : Invocation) : Prop where
  verbose : invocation.verbose = other.verbose
  task : AlikeTask invocation.task other.task

theorem AlikeInvocation.refl (invocation : Invocation) : AlikeInvocation invocation invocation :=
  ⟨rfl, .same invocation.task⟩

namespace AlikeGiven

variable {given other : Given} (h : AlikeGiven given other)

include h

theorem isOn_eq {p : Parameter} (hp : p.isCredential = false) :
    Given.isOn given p = Given.isOn other p := by
  rw [Given.isOn, Given.isOn, h.others p hp]

theorem templateChoice_eq : Given.templateChoice given = Given.templateChoice other := by
  rw [Given.templateChoice, Given.templateChoice, h.others .template rfl, h.isOn_eq rfl]

theorem alikeSettings : AlikeSettings (Given.settings given) (Given.settings other) where
  others := by
    simp only [Given.settings, h.others .protocol rfl, h.others .host rfl, h.others .port rfl,
      h.others .apiVersion rfl]
  user := h.alikeSetting .user
  password := h.alikeSetting .password

theorem alikeTask (s : Subcommand) : AlikeTask (Given.task given s) (Given.task other s) := by
  cases s with
  | issue =>
      have htask : Given.task other .issue = .issue
          { key := (given.lookup .issueKey).getD ""
            query := ⟨given.lookup .fields, given.lookup .expand⟩
            template := Given.templateChoice given
            raw := Given.isOn given .raw
            table := Given.isOn given .table
            settings := Given.settings other } := by
        rw [Given.task, h.others .issueKey rfl, h.others .fields rfl, h.others .expand rfl,
          h.templateChoice_eq, h.isOn_eq (p := .raw) rfl, h.isOn_eq (p := .table) rfl]
      rw [htask]
      exact .issue _ h.alikeSettings
  | project =>
      rw [Given.task, Given.task, h.others .input rfl, h.templateChoice_eq, h.isOn_eq rfl]
      exact .same _
  | template =>
      rw [Given.task, Given.task, h.templateChoice_eq]
      exact .same _

theorem checkComplete_eq (s : Subcommand) : checkComplete s given = checkComplete s other := by
  rw [checkComplete, checkComplete, h.others .issueKey rfl, h.others .legacy rfl,
    h.others .template rfl]

end AlikeGiven

theorem read_tracks {environment other : Environment}
    (h : SameBesidesCredentials environment other) (arguments : List String) :
    Tracks AlikeInvocation (Invocation.read arguments environment)
      (Invocation.read arguments other) := by
  have hvalue : Environment.value? environment .verbose = Environment.value? other .verbose :=
    value?_eq h rfl
  have hcheck : checkVerboseVariable environment = checkVerboseVariable other := by
    rw [checkVerboseVariable, checkVerboseVariable, hvalue]
  rw [Invocation.read, Invocation.read]
  -- What stands before the subcommand is read without the environment.
  refine (Tracks.of_eq rfl).bind ?_
  rintro front _ rfl
  cases front.subcommand? with
  | none =>
      simp only [hcheck, hvalue]
      exact .refl .refl _
  | some selected =>
      obtain ⟨s, rest⟩ := selected
      simp only [hcheck]
      refine (Tracks.of_eq rfl).bind ?_
      rintro given _ rfl
      refine (complete_tracks h s.parameters (.refl given)).bind fun given given' hgiven => ?_
      refine (Tracks.of_eq (hgiven.checkComplete_eq s)).bind fun _ _ _ => ?_
      have hasked : AlikeInvocation
          ⟨front.verbose || Given.isOn given .verbose, Given.task given s⟩
          ⟨front.verbose || Given.isOn given' .verbose, Given.task given' s⟩ :=
        ⟨by rw [hgiven.isOn_eq rfl], hgiven.alikeTask s⟩
      split
      · exact (Tracks.of_eq rfl).bind fun _ _ _ => .value hasked
      · exact .value hasked

/-! ### What is sent -/

/-- Two connections to the same place, if with other credentials. -/
def SameConnection (connection other : Issue.Connection) : Prop :=
  { connection with user := other.user, password := other.password } = other

theorem AlikeSetting.filled? {setting other : Option String} (h : AlikeSetting setting other) :
    Issue.filled? setting = none ∧ Issue.filled? other = none ∨
      ∃ value value', Issue.filled? setting = some value ∧ Issue.filled? other = some value' := by
  rcases h with rfl | ⟨hfilled, hfilled'⟩
  · cases Issue.filled? setting with
    | none => exact .inl ⟨rfl, rfl⟩
    | some value => exact .inr ⟨value, value, rfl, rfl⟩
  · obtain ⟨value, hvalue⟩ := Option.isSome_iff_exists.mp hfilled
    obtain ⟨value', hvalue'⟩ := Option.isSome_iff_exists.mp hfilled'
    exact .inr ⟨value, value', hvalue, hvalue'⟩

theorem connection_tracks {settings other : Issue.Settings} (h : AlikeSettings settings other) :
    Tracks SameConnection settings.connection other.connection := by
  rw [← h.others, Issue.Settings.connection, Issue.Settings.connection]
  rcases h.user.filled? with ⟨huser, huser'⟩ | ⟨user, user', huser, huser'⟩ <;>
    rcases h.password.filled? with
      ⟨hpassword, hpassword'⟩ | ⟨password, password', hpassword, hpassword'⟩ <;>
    rw [huser, huser', hpassword, hpassword'] <;>
    cases Issue.filled? settings.host
  -- Only where all three are there is there a connection.
  case inr.inr.some => exact .value rfl
  all_goals exact .fault _

theorem SameConnection.root_eq {connection other : Issue.Connection}
    (h : SameConnection connection other) : connection.root = other.root :=
  h ▸ rfl

section

variable (surroundings : Surroundings) (other : Environment)

theorem load_eq (choice : TemplateChoice) :
    choice.load { surroundings with environment := other } = choice.load surroundings :=
  rfl

theorem prepareIssue_tracks {options : IssueOptions} {settings : Issue.Settings}
    (h : AlikeSettings options.settings settings) :
    Tracks (fun result result' => SameConnection result.1 result'.1 ∧ result.2 = result'.2)
      (prepareIssue options surroundings)
      (prepareIssue { options with settings := settings }
        { surroundings with environment := other }) := by
  rw [prepareIssue, prepareIssue, load_eq]
  split
  · exact .fault _
  · refine ((connection_tracks h).mapError _).bind fun connection connection' hsame => ?_
    refine (Tracks.of_eq rfl).bind ?_
    rintro template _ rfl
    exact .value ⟨hsame, rfl⟩

def Request.withoutAuthorization (request : Request) : Request :=
  { request with authorization := "" }

def Ending.withoutAuthorization : Ending → Ending
  | .request prepared => .request prepared.withoutAuthorization
  | ending => ending

/-- All that an outcome shows, the authorization header of its request apart. -/
def Outcome.withoutAuthorization (outcome : Outcome) : Outcome :=
  { outcome with ending := outcome.ending.withoutAuthorization }

theorem runIssue_conceals {options : IssueOptions} {settings : Issue.Settings}
    (h : AlikeSettings options.settings settings) (verbose : Bool) :
    (runIssue options verbose surroundings).withoutAuthorization =
      (runIssue { options with settings := settings } verbose
        { surroundings with environment := other }).withoutAuthorization := by
  have hheaders := Issue.headers_eq_ok fun _ => Issue.isHeaderValue_of_isVisible
  have htracks := prepareIssue_tracks surroundings other h
  rw [runIssue, runIssue]
  generalize prepareIssue options surroundings = prepared,
    prepareIssue { options with settings := settings }
      { surroundings with environment := other } = prepared' at htracks ⊢
  cases htracks with
  | fault failure => rfl
  | @value prepared prepared' hprepared =>
      obtain ⟨connection, template⟩ := prepared
      obtain ⟨connection', template'⟩ := prepared'
      obtain ⟨hsame, rfl⟩ := hprepared
      simp only [hheaders, hsame.root_eq, Outcome.withoutAuthorization]
      split
      · simp only [Ending.withoutAuthorization, Request.withoutAuthorization]
      · simp only [Ending.withoutAuthorization]

theorem invocation_run_conceals {invocation invocation' : Invocation}
    (h : AlikeInvocation invocation invocation') :
    (invocation.run surroundings).withoutAuthorization =
      (invocation'.run { surroundings with environment := other }).withoutAuthorization := by
  obtain ⟨hverbose, htask⟩ := h
  rw [Invocation.run, Invocation.run, ← hverbose]
  generalize invocation.task = task, invocation'.task = task' at htask
  cases htask with
  | issue options h => exact runIssue_conceals surroundings other h _
  | same =>
      cases task with
      | issue options =>
          exact runIssue_conceals surroundings other ⟨rfl, .inl rfl, .inl rfl⟩ _
      | project options => rfl
      | template choice => rfl

end

/-- Whatever the arguments, the files and standard input are, other credentials change nothing of
a run but the authorization header, as long as none of them is blank. Nor does the description of a
connection change with its password. -/
theorem run_conceals_credentials {environment other : Environment}
    (h : SameBesidesCredentials environment other) :
    (∀ arguments contentsOf standardInput,
      (run arguments ⟨environment, contentsOf, standardInput⟩).withoutAuthorization =
        (run arguments ⟨other, contentsOf, standardInput⟩).withoutAuthorization) ∧
    ∀ (connection : Issue.Connection) (password : String),
      { connection with password := password }.description = connection.description := by
  refine ⟨fun arguments contentsOf standardInput => ?_, fun connection password => rfl⟩
  have htracks := read_tracks h arguments
  rw [run, run]
  generalize Invocation.read arguments environment = asked,
    Invocation.read arguments other = asked' at htracks ⊢
  cases htracks with
  | fault error => rfl
  | value halike =>
      exact invocation_run_conceals ⟨environment, contentsOf, standardInput⟩ other halike

def environmentOf (user password : String) : Environment :=
  [("JIRA_HOST", "jira.example"), ("JIRA_USER", user), ("JIRA_PASSWORD", password)]

theorem sameBesidesCredentials_environmentOf {user password user' password' : String}
    (huser : IsFilled (some user) ∧ IsFilled (some user'))
    (hpassword : IsFilled (some password) ∧ IsFilled (some password')) :
    SameBesidesCredentials (environmentOf user password) (environmentOf user' password') where
  others name hname hname' := by
    have hnot : (name == "JIRA_USER") = false := beq_eq_false_iff_ne.2 hname
    have hnot' : (name == "JIRA_PASSWORD") = false := beq_eq_false_iff_ne.2 hname'
    simp [environmentOf, List.lookup_cons, hnot, hnot']
  user := huser
  password := hpassword

def verboseRun (user password : String) : Outcome :=
  run ["issue", "A-1", "--verbose"]
    ⟨environmentOf user password, fun _ => .error .notFound, .empty⟩

theorem run_conceals_credentials_verbose :
    SameBesidesCredentials (environmentOf "ann" "one") (environmentOf "josé" "two:2") ∧
      (verboseRun "ann" "one").withoutAuthorization =
        (verboseRun "josé" "two:2").withoutAuthorization ∧
      verboseRun "ann" "one" ≠ verboseRun "josé" "two:2" := by
  have hsame : SameBesidesCredentials (environmentOf "ann" "one") (environmentOf "josé" "two:2") :=
    sameBesidesCredentials_environmentOf (by decide) (by decide)
  exact ⟨hsame, (run_conceals_credentials hsame).1 _ _ _, by decide +kernel⟩

end Reshape.Command
