import AccessFilter.Cli.Arguments
import AccessFilter.Policy.Folder
import AccessFilter.Settings.Environment
import AccessFilter.Sql.Fragment
import AccessFilter.Sql.TableFile

/-!
# Filters for requests, from files

An argument wins over a variable. A filter is made only from a complete policy: one file that fails
to load is enough to give none, since it could have held a deny rule.

* `Settings`, `Settings.resolve`  where policies and schema are and how the filter is written;
* `RunError`           what can go wrong, with the chain of its causes;
* `loadPolicies`       the policies of the settings, with a result per file;
* `FilterReport`       the filter of a request with the number of its rules;
* `compileFilter`      the report of a request;
* `FilterReport.text`, `FilterReport.toValue`, `loadResultsText`  what is printed.
-/

namespace AccessFilter

/-- Where policies and schema are and how the filter is written. -/
structure Settings where
  policyPath : String
  schemaPath : Option String
  placeholder : Placeholder
  comparisons : Bool

/-! ## faults -/

inductive RunError where
  | noPolicy
  | noSchema
  | noAction
  | noSubject
  | unknownPlaceholder (name : String)
  | schema (path : String) (cause : TableError)
  | policies (path : String) (cause : FileError)
  | policyFile (path : String) (cause : LoadFault)
  | compilation (action subject : String) (cause : CompileError)

namespace RunError

/-- The causes behind a fault of a file; the wording of the innermost cause of a text that is not of
the expected form is left open. -/
def causesBehind : TableError → List (Option String)
  | .file cause => [some cause.message]
  | .yaml _ => [none]
  | .refused _ => []

/-- The wording of a fault and of its causes, from the outermost in. -/
def chain : RunError → List (Option String)
  | .noPolicy => [some "no policy given: pass --policy or set POLICY_PATH"]
  | .noSchema => [some "no schema given: pass --schema or set SCHEMA_PATH"]
  | .noAction => [some "--action is required"]
  | .noSubject => [some "--subject is required"]
  | .unknownPlaceholder name => [some (Placeholder.unknownMessage name)]
  | .schema path cause =>
    [some ("failed to load schema from " ++ path), some cause.message] ++ causesBehind cause
  | .policies path cause =>
    [some ("failed to load policies from " ++ path), some (LoadError.fileMessage cause),
      some cause.message]
  | .policyFile path cause =>
    [some ("policy file " ++ path ++ " failed to load: " ++ cause.message)]
  | .compilation action subject cause =>
    [some ("failed to compile rules for " ++ action ++ " " ++ subject), some cause.message] ++
      (match cause with
        | .operator _ behind => [some behind.message]
        | _ => [])

/-- The wordings up to the first that is left open. -/
def messages (e : RunError) : List String := (e.chain.takeWhile (·.isSome)).filterMap id

def isCompilation : RunError → Bool
  | .compilation _ _ _ => true
  | _ => false

/-- A text whose further lines start with blanks. -/
def indentLines (blanks : Nat) (text : String) : String :=
  String.ofList (text.toList.flatMap fun c =>
    if c = '\n' then '\n' :: List.replicate blanks ' ' else [c])

/-- A cause on a line of its own. Causes are numbered when there are several. -/
def causeLine (number : Option Nat) (text : String) : String :=
  match number with
  | some n =>
    let digits := String.ofList (Nat.toDigits 10 n)
    "\n" ++ String.ofList (List.replicate (5 - digits.length) ' ') ++ digits ++ ": " ++
      indentLines 7 text
  | none => "\n    " ++ indentLines 4 text

/-- The lines of the causes from a number on, up to the first that is left open. -/
def causeLines (several : Bool) (n : Nat) : List (Option String) → String
  | some text :: rest =>
    causeLine (if several then some n else none) text ++ causeLines several (n + 1) rest
  | _ => ""

/-- The fault with its causes, as it is reported. -/
def report (e : RunError) : String :=
  match e.chain with
  | [] => "Error: "
  | main :: [] => "Error: " ++ main.getD ""
  | main :: causes =>
    "Error: " ++ main.getD "" ++ "\n\nCaused by:" ++ causeLines (1 < causes.length) 0 causes

end RunError

/-! ## settings -/

namespace Settings

/-- The settings of a run: an argument wins over a variable. -/
def resolve (args : Arguments) (config : Config) : Except RunError Settings :=
  match args.policy.or config.policyPath with
  | none => .error .noPolicy
  | some policyPath =>
    match Placeholder.parse (args.placeholder.getD config.placeholder) with
    | .error name => .error (.unknownPlaceholder name)
    | .ok placeholder =>
      .ok {
        policyPath := policyPath
        schemaPath := args.schema.or config.schemaPath
        placeholder := placeholder
        comparisons := args.comparisonsFlag.getD config.comparisons }

def requireSchema (s : Settings) : Except RunError String :=
  match s.schemaPath with
  | some path => .ok path
  | none => .error .noSchema

def adapter (s : Settings) (schema : Schema) : Adapter :=
  if s.comparisons then .withOperators schema Registry.empty.withComparisons
  else .standard schema

end Settings

/-! ## policies -/

def loadPolicies (disk : Disk) (s : Settings) :
    Except RunError (List LoadResult × PolicyFolder) :=
  match ({ root := s.policyPath } : PolicyFolder).loadAll disk with
  | .ok loaded => .ok loaded
  | .error e => .error (.policies s.policyPath e)

def LoadStatus.text : LoadStatus → String
  | .loaded id rules =>
    "loaded   " ++ id ++ " (" ++ String.ofList (Nat.toDigits 10 rules) ++ " rules)"
  | .skipped reason => "skipped  " ++ reason.message
  | .failed fault => "failed   " ++ fault.message

def loadResultsText (folder : PolicyFolder) (results : List LoadResult) : String :=
  String.join (results.map fun r => r.status.text ++ "  " ++ folder.resultPath r ++ "\n")

def firstFailure? (results : List LoadResult) : Option (FilePath × LoadFault) :=
  results.findSome? fun r =>
    match r.status with
    | .failed fault => some (r.path, fault)
    | _ => none

/-! ## reports -/

/-- The filter of a request. -/
structure FilterReport where
  action : String
  subject : String
  rules : Nat
  placeholder : Placeholder
  fragment : Fragment

/-- The filter of a request on the policies and the schema of the settings. -/
def compileFilter (disk : Disk) (s : Settings) (action subject : String) :
    Except RunError FilterReport := do
  let schemaPath ← s.requireSchema
  let schema ← (TableSchema.load disk schemaPath).mapError (RunError.schema schemaPath)
  let (results, folder) ← loadPolicies disk s
  match firstFailure? results with
  | some (path, fault) => throw (.policyFile (pathText folder.root path) fault)
  | none =>
    let policies := folder.policySet
    let compilation :=
      (s.adapter schema.lookup).filterSource policies.rulesFor action subject
    let filter ← compilation.result.mapError (RunError.compilation action subject)
    return {
      action := action
      subject := subject
      rules := (policies.rulesFor action subject).length
      placeholder := s.placeholder
      fragment := filter.fragment s.placeholder }

def Value.ofNat (n : Nat) : Value :=
  match Number.ofInt? n with
  | some k => .number k
  | none => .null

namespace FilterReport

def paramLine (marker : Char) (k : Nat) (v : Value) : List Char :=
  "-- ".toList ++ marker :: Nat.toDigits 10 k ++ " = ".toList ++ v.jsonChars ++ ['\n']

/-- The lines of the bound values from a number on. -/
def paramLines (marker : Char) (k : Nat) : List Value → List Char
  | [] => []
  | v :: vs => paramLine marker k v ++ paramLines marker (k + 1) vs

/-- The report as SQL text, with comments for the request and the bound values. -/
def text (r : FilterReport) : String :=
  "-- " ++ r.action ++ " " ++ r.subject ++ " (" ++ String.ofList (Nat.toDigits 10 r.rules) ++
    " rules)\n" ++ "WHERE " ++ r.fragment.sql ++ "\n" ++
    String.ofList (paramLines r.placeholder.marker 1 r.fragment.params)

def toValue (r : FilterReport) : Value :=
  .object [("action", .string r.action), ("subject", .string r.subject),
    ("rules", Value.ofNat r.rules), ("placeholder", .string r.placeholder.name),
    ("sql", .string r.fragment.sql), ("params", .array r.fragment.params)]

end FilterReport

end AccessFilter
