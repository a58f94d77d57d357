import AccessFilter.Cli.Report
import AccessFilter.Settings.Dotenv

/-!
# A run of the program

* `Outcome`     what a run prints, and its exit code;
* `run`         a run on arguments, variables and files. Variables may be added by the file `.env`;
* `pathsOf`     the paths at which a run looks.
-/

namespace AccessFilter

/-- What a run prints to each stream, and its exit code. -/
structure Outcome where
  exitCode : Nat
  output : String := ""
  errors : String := ""

def dotenvPath : String := ".env"

/-- The variables with those of the file `.env`, if it is there, unless one of them cannot be set. -/
def withDotenv (disk : Disk) (env : Environment) : Option Environment :=
  match disk.text dotenvPath with
  | .ok text => env.load text
  | .error _ => some env

def FilterReport.printed (r : FilterReport) : OutputFormat → String
  | .text => r.text
  | .json => r.toValue.pretty ++ "\n"

def output (disk : Disk) (args : Arguments) (config : Config) : Except RunError String := do
  let settings ← Settings.resolve args config
  if args.listPolicies then
    let (results, folder) ← loadPolicies disk settings
    return loadResultsText folder results
  else
    match args.action, args.subject with
    | none, _ => throw .noAction
    | some _, none => throw .noSubject
    | some action, some subject =>
      return (← compileFilter disk settings action subject).printed args.outputFormat

def usage : String :=
  "Usage: rowguard [OPTIONS] --action <ACTION> --subject <SUBJECT>"

/-- A run on arguments, given all variables. -/
def runWith (disk : Disk) (env : Environment) (args : List String) : Outcome :=
  match Arguments.parse args with
  | .error .help => { exitCode := 0, output := usage ++ "\n" }
  | .error _ => { exitCode := 2, errors := usage ++ "\n" }
  | .ok args =>
    match output disk args (Config.ofProfile? env args.profile) with
    | .ok text => { exitCode := 0, output := text }
    | .error e => { exitCode := 1, errors := e.report ++ "\n" }

/-- The exit code of a run that breaks off. -/
def brokenOff : Nat := 101

/-- A run on arguments, variables and files. A variable that cannot be set breaks it off. -/
def run (disk : Disk) (env : Environment) (args : List String) : Outcome :=
  match withDotenv disk env with
  | none => { exitCode := brokenOff, errors := "a variable cannot hold a zero character\n" }
  | some env => runWith disk env args

/-- The paths at which a run looks for policies and schema, given all variables. -/
def pathsOf (env : Environment) (args : List String) : List String :=
  match Arguments.parse args with
  | .error _ => []
  | .ok args =>
    let config := Config.ofProfile? env args.profile
    (args.policy.or config.policyPath).toList ++ (args.schema.or config.schemaPath).toList

end AccessFilter
