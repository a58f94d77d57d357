import AccessFilter.Text.Lowercase
import AccessFilter.Text.Uppercase
import AccessFilter.Value.Basic

/-!
# Settings from variables

A profile is a name in upper case. With a profile every setting is first looked for under the
profile's own variable, whose name starts with the profile and an underscore; an empty variable is
like a missing one.

* `Environment`      variables with their values; `Environment.find?` looks one up;
* `profiled?`        the variable of a setting under a profile;
* `Config`           all settings that variables give;
* `Config.summary`   the settings in words.
-/

namespace AccessFilter

abbrev Environment := Fields String

namespace Environment

/-- What is left of a text behind a given start. -/
def behind? : (start text : List Char) → Option (List Char)
  | [], text => some text
  | _ :: _, [] => none
  | c :: start, d :: text => if c = d then behind? start text else none

/-- The value of a variable. Names and values are told apart by an equals sign only, so a variable
`a` with the value `b=c` is a variable `a=b` with the value `c` too. -/
def find? (env : Environment) (name : String) : Option String :=
  let plain := name.toList.takeWhile (· ≠ '=')
  match name.toList.dropWhile (· ≠ '=') with
  | [] => Fields.find? name env
  | _ :: inner => do
    let value ← Fields.find? (String.ofList plain) env
    return String.ofList (← behind? (inner ++ ['=']) value.toList)

/-- The value of a variable, unless it is empty. -/
def nonEmpty? (env : Environment) (name : String) : Option String :=
  (env.find? name).filter fun v => !v.isEmpty

/-- The name of the profile's own variable of a setting. -/
def profiledName (profile key : String) : String := profile ++ "_" ++ key

/-- The value of a setting: the profile's own variable, otherwise the plain one. -/
def profiled? (env : Environment) (profile key : String) : Option String :=
  if profile.isEmpty then env.nonEmpty? key
  else (env.nonEmpty? (profiledName profile key)).or (env.nonEmpty? key)

end Environment

/-- Settings as variables give them. -/
structure Config where
  profile : String
  policyPath : Option String
  schemaPath : Option String
  placeholder : String
  comparisons : Bool
  logLevel : String

def saysYes (s : String) : Bool := Text.asciiLower s ∈ ["1", "true", "yes", "on"]

namespace Config

def profileVariable : String := "ROWGUARD_PROFILE"

/-- The settings under a profile, given in any case. -/
def ofProfile (env : Environment) (profile : String) : Config :=
  let p := Text.uppercase profile
  { profile := p
    policyPath := env.profiled? p "POLICY_PATH"
    schemaPath := env.profiled? p "SCHEMA_PATH"
    placeholder := (env.profiled? p "SQL_PLACEHOLDER").getD "postgres"
    comparisons := ((env.profiled? p "SQL_COMPARISONS").map saysYes).getD false
    logLevel := (env.profiled? p "LOG_LEVEL").getD "warn" }

/-- The settings under the profile that its variable names. -/
def ofEnvironment (env : Environment) : Config :=
  ofProfile env (Text.uppercase ((env.find? profileVariable).getD ""))

/-- The settings under a given profile, or under the one of the variable. -/
def ofProfile? (env : Environment) : Option String → Config
  | some profile => ofProfile env profile
  | none => ofEnvironment env

def label (c : Config) : String := if c.profile.isEmpty then "default" else c.profile

def summary (c : Config) : List String :=
  ["Config loaded (profile: " ++ c.label ++ "):",
    "  policy:  path=" ++ c.policyPath.getD "(none)",
    "  schema:  path=" ++ c.schemaPath.getD "(none)",
    "  sql:     placeholder=" ++ c.placeholder ++ ", comparisons=" ++
      (if c.comparisons then "true" else "false"),
    "  log:     level=" ++ c.logLevel]

def pathValue : Option String → Value
  | some path => .string path
  | none => .null

def toValue (c : Config) : Value :=
  .object [("profile", .string c.profile),
    ("policy", .object [("path", pathValue c.policyPath)]),
    ("schema", .object [("path", pathValue c.schemaPath)]),
    ("sql", .object [("placeholder", .string c.placeholder), ("comparisons", .bool c.comparisons)]),
    ("log", .object [("level", .string c.logLevel)])]

end Config

end AccessFilter
