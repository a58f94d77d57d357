import AccessFilter.Settings.Environment
import AccessFilter.Text.Letters

/-!
# Variables from a file of assignments

Each line assigns a value to a name; a value may be quoted, may stretch over several lines while a
quote is open, and may refer to variables with a dollar sign. A variable that is set already keeps
its value. The first line that breaks the rules ends the reading.

* `Dotenv.logicalLines`  the lines, those with an open quote joined;
* `Dotenv.readValue`     a value with its quotes, escapes and references;
* `Dotenv.readLine`      an assignment;
* `Environment.load`     the variables after the whole file.
-/

namespace AccessFilter

namespace Dotenv

open Text (isSpace isAlphanumeric)

/-! ## lines -/

/-- The lines of a text, each with its line feed. -/
def physicalLines : List Char → List (List Char)
  | [] => []
  | '\n' :: cs => ['\n'] :: physicalLines cs
  | c :: cs =>
    match physicalLines cs with
    | [] => [[c]]
    | line :: lines => (c :: line) :: lines

/-- What is open at a place of a line. -/
inductive LineState where
  | plain
  | space
  | escape
  | single
  | singleEscape
  | double
  | doubleEscape
deriving DecidableEq

/-- What is open behind a character outside quotes. -/
def LineState.outside (c : Char) : LineState :=
  if c = '\\' then .escape
  else if c = '"' then .double
  else if c = '\'' then .single
  else .plain

/-- What is open behind a character. -/
def LineState.next (s : LineState) (c : Char) : LineState :=
  match s with
  | .plain => if isSpace c && c ≠ '\n' && c ≠ '\r' then .space else outside c
  | .space => outside c
  | .escape => .plain
  | .single => if c = '\\' then .singleEscape else if c = '\'' then .plain else .single
  | .singleEscape => .single
  | .double => if c = '\\' then .doubleEscape else if c = '"' then .plain else .double
  | .doubleEscape => .double

/-- A line up to a comment, and what is open at its end; a comment ends the line with nothing
open. A number sign starts a comment only behind a blank. -/
def scanLine (s : LineState) : List Char → List Char × Option LineState
  | [] => ([], some s)
  | c :: cs =>
    if s = .space && c = '#' then ([], none)
    else
      let (text, last) := scanLine (s.next c) cs
      (c :: text, last)

def dropLineEnd (line : List Char) : List Char :=
  match line.reverse with
  | '\n' :: '\r' :: rest => rest.reverse
  | '\n' :: rest => rest.reverse
  | _ => line

/-- The lines, those with something open at their end joined with the next one; `none` stands for a
file that ends too early. Lines that hold only a comment are empty. -/
def logicalLines (before : List Char) (s : LineState) :
    List (List Char) → List (Option (List Char))
  | [] => if s = .plain then [] else [none]
  | line :: lines =>
    let joined := before ++ line
    if (joined.dropWhile isSpace).head? == some '#' then some [] :: logicalLines [] .plain lines
    else
      match scanLine s line with
      | (text, none) => some (before ++ text) :: logicalLines [] .plain lines
      | (_, some .plain) => some (dropLineEnd joined) :: logicalLines [] .plain lines
      | (_, some pending) => logicalLines joined pending lines

/-! ## values -/

/-- Where in a value the reading is: outside quotes, between single or double quotes, behind the
value, behind a backslash, or in a reference to a variable, in braces or not. The flags tell
whether a double quote is open. -/
inductive ValueState where
  | bare
  | single
  | double
  | behind
  | escape (quoted : Bool)
  | reference (quoted : Bool) (name : List Char)
  | braced (quoted : Bool) (name : List Char)

/-- Back in the text around an escape or a reference. -/
def ValueState.around (quoted : Bool) : ValueState := if quoted then .double else .bare

/-- The value of a variable; a missing one is empty. -/
def referred (env : Environment) (name : List Char) : List Char :=
  ((env.find? (String.ofList name)).getD "").toList

def escaped? (c : Char) : Option Char :=
  if c ∈ ['\\', '\'', '"', '$', ' '] then some c else if c = 'n' then some '\n' else none

def prepend (cs : List Char) (rest : Option (List Char)) : Option (List Char) := rest.map (cs ++ ·)

/-- A value from a state on. -/
def readValue (env : Environment) : ValueState → List Char → Option (List Char)
  | .bare, [] => some []
  | .behind, [] => some []
  | .escape false, [] => some []
  | .reference false name, [] => some (referred env name)
  | _, [] => none
  | .behind, c :: cs =>
    if c = ' ' || c = '\t' then readValue env .behind cs
    else if c = '#' then some []
    else none
  | .escape quoted, c :: cs =>
    match escaped? c with
    | some d => prepend [d] (readValue env (.around quoted) cs)
    | none => none
  | .single, c :: cs =>
    if c = '\'' then readValue env .bare cs else prepend [c] (readValue env .single cs)
  | .reference quoted name, c :: cs =>
    if isAlphanumeric c then readValue env (.reference quoted (name ++ [c])) cs
    else if c = '\x7b' && name.isEmpty then readValue env (.braced quoted []) cs
    else if c = '$' then prepend (referred env name) (readValue env (.reference quoted []) cs)
    else prepend (referred env name ++ [c]) (readValue env (.around quoted) cs)
  | .braced quoted name, c :: cs =>
    if c = '\x7d' then prepend (referred env name) (readValue env (.around quoted) cs)
    else readValue env (.braced quoted (name ++ [c])) cs
  | .double, c :: cs =>
    if c = '$' then readValue env (.reference true []) cs
    else if c = '"' then readValue env .bare cs
    else if c = '\\' then readValue env (.escape true) cs
    else prepend [c] (readValue env .double cs)
  | .bare, c :: cs =>
    if c = '$' then readValue env (.reference false []) cs
    else if c = '\'' then readValue env .single cs
    else if c = '"' then readValue env .double cs
    else if c = '\\' then readValue env (.escape false) cs
    else if c = ' ' || c = '\t' then readValue env .behind cs
    else prepend [c] (readValue env .bare cs)

/-! ## assignments -/

def trimEnd (cs : List Char) : List Char := (cs.reverse.dropWhile isSpace).reverse

def trimStart (cs : List Char) : List Char := cs.dropWhile isSpace

def isNameChar (c : Char) : Bool := c.isAlphanum || c = '_' || c = '.'

/-- A name, which starts with a letter or an underscore, and the text behind the blanks after it. -/
def readName : List Char → Option (List Char × List Char)
  | [] => none
  | c :: cs =>
    if c.isAlpha || c = '_' then
      some (c :: cs.takeWhile isNameChar, trimStart (cs.dropWhile isNameChar))
    else none

def passEquals : List Char → Option (List Char)
  | '=' :: cs => some cs
  | _ => none

/-- The name of an assignment, after the word `export` or without it, and the text behind the
equals sign. -/
def readTarget (cs : List Char) : Option (List Char × List Char) := do
  let (name, rest) ← readName cs
  match passEquals rest with
  | some rest => return (name, rest)
  | none =>
    if name == "export".toList then
      let (name, rest) ← readName rest
      return (name, ← passEquals rest)
    else none

/-- Whether nothing but a comment is left. -/
def isVoid (cs : List Char) : Bool := cs.isEmpty || cs.head? == some '#'

/-- The assignment of a line: an empty line has none, and a faulty one fails. -/
def readLine (env : Environment) (line : List Char) : Option (Option (String × String)) :=
  let cs := trimStart (trimEnd line)
  if isVoid cs then some none
  else do
    let (name, rest) ← readTarget cs
    let rest := trimStart rest
    let value ← if isVoid rest then some [] else readValue env .bare rest
    return some (String.ofList name, String.ofList value)

end Dotenv

namespace Environment

/-- Set a variable that is not set yet. No variable can hold a zero character. -/
def setNew (env : Environment) (name value : String) : Option Environment :=
  if (env.find? name).isSome then some env
  else if '\x00' ∈ value.toList then none
  else some (Fields.put name value env)

/-- The variables after some lines, up to the first that breaks the rules. -/
def loadLines (env : Environment) : List (Option (List Char)) → Option Environment
  | [] => some env
  | none :: _ => some env
  | some line :: lines =>
    match Dotenv.readLine env line with
    | none => some env
    | some none => loadLines env lines
    | some (some (name, value)) => do loadLines (← env.setNew name value) lines

/-- The variables after a file of assignments, unless one of them cannot be set; a byte order mark
at its start does not count. -/
def load (env : Environment) (text : String) : Option Environment :=
  let cs := match text.toList with
    | '\ufeff' :: cs => cs
    | cs => cs
  env.loadLines (Dotenv.logicalLines [] .plain (Dotenv.physicalLines cs))

end Environment

end AccessFilter
