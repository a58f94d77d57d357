/-!
# Command line arguments

Options are written `--name value` or `--name=value`, flags `--name`. An option may be given once;
the two flags for the comparison operators cancel each other. A value that starts with a dash must be
attached with an equals sign. Action and subject are required unless policies are listed.

* `Arguments`         what the command line gives;
* `UsageError`        why it is refused;
* `Arguments.parse`   reads the arguments; the first fault counts.
-/

namespace AccessFilter

inductive OutputFormat where
  | text
  | json
deriving DecidableEq

def OutputFormat.name : OutputFormat → String
  | .text => "text"
  | .json => "json"

def OutputFormat.ofName? (name : String) : Option OutputFormat :=
  if name = "text" then some .text else if name = "json" then some .json else none

structure Arguments where
  policy : Option String := none
  schema : Option String := none
  action : Option String := none
  subject : Option String := none
  placeholder : Option String := none
  profile : Option String := none
  format : Option OutputFormat := none
  comparisons : Bool := false
  noComparisons : Bool := false
  listPolicies : Bool := false

/-- Why a command line is refused; asking for help ends the reading too. -/
inductive UsageError where
  | missingRequired
  | unknownArgument
  | repeated
  | invalidValue
  | unneededValue
  | help
deriving DecidableEq

namespace Arguments

def comparisonsFlag (a : Arguments) : Option Bool :=
  if a.comparisons then some true else if a.noComparisons then some false else none

def outputFormat (a : Arguments) : OutputFormat := a.format.getD .text

/-! ## options and flags -/

inductive Key where
  | policy
  | schema
  | action
  | subject
  | placeholder
  | profile
  | format
deriving DecidableEq

def Key.ofName? (name : String) : Option Key :=
  match name with
  | "policy" => some .policy
  | "schema" => some .schema
  | "action" => some .action
  | "subject" => some .subject
  | "placeholder" => some .placeholder
  | "profile" => some .profile
  | "format" => some .format
  | _ => none

inductive Flag where
  | comparisons
  | noComparisons
  | listPolicies
  | help
deriving DecidableEq

def Flag.ofName? (name : String) : Option Flag :=
  match name with
  | "comparisons" => some .comparisons
  | "no-comparisons" => some .noComparisons
  | "list-policies" => some .listPolicies
  | "help" => some .help
  | _ => none

def once {α : Type} (before : Option α) (value : α) : Except UsageError (Option α) :=
  if before.isSome then .error .repeated else .ok (some value)

/-- A path, which must not be empty. -/
def checkedPath (value : Option String) : Except UsageError (Option String) :=
  if value == some "" then .error .invalidValue else .ok value

/-- Set an option. A repetition is noticed before the value is looked at. -/
def set (a : Arguments) (key : Key) (value : String) : Except UsageError Arguments :=
  match key with
  | .policy => do return { a with policy := ← checkedPath (← once a.policy value) }
  | .schema => do return { a with schema := ← checkedPath (← once a.schema value) }
  | .action => do return { a with action := ← once a.action value }
  | .subject => do return { a with subject := ← once a.subject value }
  | .placeholder => do return { a with placeholder := ← once a.placeholder value }
  | .profile => do return { a with profile := ← once a.profile value }
  | .format =>
    if a.format.isSome then .error .repeated
    else
      match OutputFormat.ofName? value with
      | some format => .ok { a with format := some format }
      | none => .error .invalidValue

def raise (a : Arguments) : Flag → Except UsageError Arguments
  | .comparisons =>
    if a.comparisons then .error .repeated
    else .ok { a with comparisons := true, noComparisons := false }
  | .noComparisons =>
    if a.noComparisons then .error .repeated
    else .ok { a with noComparisons := true, comparisons := false }
  | .listPolicies =>
    if a.listPolicies then .error .repeated else .ok { a with listPolicies := true }
  | .help => .error .help

/-! ## reading -/

/-- An option whose value is still to come, or has come and is still to be looked at. -/
structure Pending where
  key : Key
  value : Option String

/-- Look at a pending option. -/
def settle (a : Arguments) : Option Pending → Except UsageError Arguments
  | none => .ok a
  | some ⟨_, none⟩ => .error .invalidValue
  | some ⟨key, some value⟩ => a.set key value

/-- What an argument looks like. -/
inductive Shape where
  | separator
  | long (name : String) (value : Option String)
  | short (letter : Char)
  | word

/-- A name up to an equals sign, and the value behind it. -/
def splitEquals (cs : List Char) : String × Option String :=
  let name := String.ofList (cs.takeWhile (· ≠ '='))
  match cs.dropWhile (· ≠ '=') with
  | _ :: value => (name, some (String.ofList value))
  | [] => (name, none)

def shapeOf (arg : String) : Shape :=
  match arg.toList with
  | ['-', '-'] => .separator
  | '-' :: '-' :: cs =>
    let (name, value) := splitEquals cs
    .long name value
  | '-' :: c :: _ => .short c
  | _ => .word

/-- An argument with two dashes. What is pending is settled first, unless the argument itself is
at fault. -/
def readLong (a : Arguments) (pending : Option Pending) (name : String) (value : Option String) :
    Except UsageError (Arguments × Option Pending) :=
  match Key.ofName? name, Flag.ofName? name, value with
  | some key, _, some value => do return (← (← a.settle pending).set key value, none)
  | some key, _, none => do return (← a.settle pending, some ⟨key, none⟩)
  | none, some _, some _ => .error .unneededValue
  | none, some flag, none => do return (← (← a.settle pending).raise flag, none)
  | none, none, _ => .error .unknownArgument

def readAll (a : Arguments) (pending : Option Pending) : List String → Except UsageError Arguments
  | [] => a.settle pending
  | arg :: args =>
    match shapeOf arg with
    | .separator => if args.isEmpty then a.settle pending else .error .unknownArgument
    | .long name value => do
      let (a, pending) ← a.readLong pending name value
      readAll a pending args
    | .short letter =>
      if letter = 'h' then do
        let _ ← a.settle pending
        throw .help
      else .error .unknownArgument
    | .word =>
      match pending with
      | some ⟨key, none⟩ => readAll a (some ⟨key, some arg⟩) args
      | _ => .error .unknownArgument

/-- Action and subject must be given, unless policies are listed. -/
def check (a : Arguments) : Except UsageError Arguments :=
  if a.listPolicies || (a.action.isSome && a.subject.isSome) then .ok a
  else .error .missingRequired

/-- The arguments of a command line, without the name of the program. -/
def parse (args : List String) : Except UsageError Arguments := do
  (← readAll {} none args).check

end Arguments

end AccessFilter
