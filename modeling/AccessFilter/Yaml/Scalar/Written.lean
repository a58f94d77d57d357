import AccessFilter.Yaml.Character
import AccessFilter.Yaml.Scalar.Meaning
import AccessFilter.Yaml.Token

/-!
# The written form of a scalar

A string with a line feed is written as a literal block, a string that would read as something else
between single quotes, and any other string plain. Where the form chosen cannot hold the string the
next one is taken: single quotes after plain, double quotes last.

* `Yaml.isPlainSafe`, `isSingleSafe`, `isLiteralSafe`  what each form can hold;
* `Yaml.styleOf`        the form of a string;
* `Yaml.writtenString`  a string in its form;
* `Yaml.endLine`        what brings the text behind a scalar to the start of a line.
-/

namespace AccessFilter.Yaml

/-! ## what the forms can hold -/

/-- Whether a character is written as it is. -/
def isShown (c : Char) : Bool :=
  let n := c.toNat
  n == 0x0A || (0x20 ≤ n && n ≤ 0x7E) || (0xA0 ≤ n && n ≤ 0xD7FF) ||
    (0xE000 ≤ n && n ≤ 0xFFFD && n ≠ 0xFEFF) || 0x10000 ≤ n

def anyPair (p : Char → Char → Bool) : List Char → Bool
  | a :: b :: rest => p a b || anyPair p (b :: rest)
  | _ => false

/-- Whether a string holds a blank right before a line break. -/
def hasBlankBreak (cs : List Char) : Bool := anyPair (fun a b => a = ' ' && isBreak b) cs

/-- Whether a string holds a blank right after a line break. -/
def hasBreakBlank (cs : List Char) : Bool := anyPair (fun a b => isBreak a && b = ' ') cs

def isSingleSafe (cs : List Char) : Bool :=
  cs.all isShown && !hasBlankBreak cs && !hasBreakBlank cs

def isLiteralSafe (cs : List Char) : Bool :=
  cs.all isShown && !hasBlankBreak cs && cs.getLast? != some ' '

/-- Whether a string holds a colon at its end or before a gap. -/
def hasColonEnd : List Char → Bool
  | [] => false
  | c :: rest => (c = ':' && atGap rest) || hasColonEnd rest

/-- Whether a string starts like something that is no plain scalar. -/
def startsLikeMark : List Char → Bool
  | '-' :: '-' :: '-' :: _ => true
  | '.' :: '.' :: '.' :: _ => true
  | c :: rest =>
    c ∈ ['#', ',', '[', ']', '\x7b', '\x7d', '&', '*', '!', '|', '>', '\'', '"', '%', '@', '\x60'] ||
      (c ∈ ['?', ':', '-'] && atGap rest)
  | [] => false

def isPlainSafe (cs : List Char) : Bool :=
  cs.all isShown && !cs.any isBreak && cs.head? != some ' ' && cs.getLast? != some ' ' &&
    !startsLikeMark cs && !hasColonEnd cs && !anyPair (fun a b => isGap a && b = '#') cs

/-! ## the form of a string -/

/-- Whether a plain scalar would not read as this string, or consists of digits behind a zero. -/
def readsOtherwise (s : String) : Bool :=
  match Value.ofPlain s with
  | some (.string _) => isPadded s.toList
  | _ => true

def styleOf (s : String) : ScalarStyle :=
  let cs := s.toList
  if cs.contains '\n' then if isLiteralSafe cs then .literal else .doubleQuoted
  else if isPlainSafe cs && !readsOtherwise s then .plain
  else if isSingleSafe cs then .singleQuoted
  else .doubleQuoted

/-! ## writing -/

def blanks (n : Nat) : List Char := List.replicate n ' '

/-- Characters over several lines, each further line that is not empty indented. -/
def indentedLines (indent : Nat) (lineStart : Bool) : List Char → List Char
  | [] => []
  | c :: rest =>
    if isBreak c then c :: indentedLines indent true rest
    else (if lineStart then blanks indent else []) ++ c :: indentedLines indent false rest

/-- A quote between single quotes is written twice. -/
def doubleQuotes (cs : List Char) : List Char :=
  cs.flatMap fun c => if c = '\'' then ['\'', '\''] else [c]

/-- A string between single quotes. A line break at its end is followed by the indentation too. -/
def writtenSingle (indent : Nat) (cs : List Char) : List Char :=
  '\'' :: indentedLines indent false (doubleQuotes cs) ++
    (if cs.getLast?.any isBreak then blanks indent else []) ++ ['\'']

def hexUpper (width n : Nat) : List Char :=
  let ds := (Nat.toDigits 16 n).map Char.toUpper
  List.replicate (width - ds.length) '0' ++ ds

def writtenEscape (c : Char) : List Char :=
  let n := c.toNat
  if n = 0x00 then ['\\', '0']
  else if n = 0x07 then ['\\', 'a']
  else if n = 0x08 then ['\\', 'b']
  else if n = 0x09 then ['\\', 't']
  else if n = 0x0A then ['\\', 'n']
  else if n = 0x0B then ['\\', 'v']
  else if n = 0x0C then ['\\', 'f']
  else if n = 0x0D then ['\\', 'r']
  else if n = 0x1B then ['\\', 'e']
  else if c = '"' then ['\\', '"']
  else if c = '\\' then ['\\', '\\']
  else if n = 0x85 then ['\\', 'N']
  else if n = 0x2028 then ['\\', 'L']
  else if n = 0x2029 then ['\\', 'P']
  else if isShown c then [c]
  else if n ≤ 0xFF then '\\' :: 'x' :: hexUpper 2 n
  else if n ≤ 0xFFFF then '\\' :: 'u' :: hexUpper 4 n
  else '\\' :: 'U' :: hexUpper 8 n

def writtenDouble (cs : List Char) : List Char := '"' :: cs.flatMap writtenEscape ++ ['"']

/-- The marks behind the mark of a literal block: the indentation where the first line does not
show it, and how the text ends. -/
def literalMarks (cs : List Char) : List Char :=
  (if cs.head?.any fun c => c = ' ' || isBreak c then ['2'] else []) ++
    match cs.reverse with
    | [] => ['-']
    | [c] => if isBreak c then ['+'] else ['-']
    | c :: d :: _ => if !isBreak c then ['-'] else if isBreak d then ['+'] else []

def writtenLiteral (indent : Nat) (cs : List Char) : List Char :=
  '|' :: literalMarks cs ++ '\n' :: indentedLines indent true cs

def writtenString (indent : Nat) (s : String) : List Char :=
  match styleOf s with
  | .plain => s.toList
  | .singleQuoted => writtenSingle indent s.toList
  | .doubleQuoted => writtenDouble s.toList
  | .literal => writtenLiteral indent s.toList
  | .folded => s.toList

/-- The line feed behind a text, unless it ends with a line break. -/
def endLine (text : List Char) : List Char :=
  if text.getLast?.any isBreak then text else text ++ ['\n']

end AccessFilter.Yaml
