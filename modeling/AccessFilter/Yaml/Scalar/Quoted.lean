import AccessFilter.Yaml.Scalar.Gap
import AccessFilter.Json.Reader

/-!
# Quoted scalars

Both kinds fold gaps as plain scalars do. Between single quotes a quote is written twice; between
double quotes a backslash starts an escape, and one before a line break drops the break.

* `Yaml.escaped?`     the character of an escape;
* `Yaml.readSingle`   the text between single quotes;
* `Yaml.readDouble`   the text between double quotes.
-/

namespace AccessFilter.Yaml

/-- The character of an escape of one letter. -/
def escaped? (c : Char) : Option Char :=
  match c with
  | '0' => some '\x00'
  | 'a' => some '\x07'
  | 'b' => some '\x08'
  | 't' => some '\t'
  | '\t' => some '\t'
  | 'n' => some '\n'
  | 'v' => some '\x0b'
  | 'f' => some '\x0c'
  | 'r' => some '\r'
  | 'e' => some '\x1b'
  | ' ' => some ' '
  | '"' => some '"'
  | '/' => some '/'
  | '\\' => some '\\'
  | 'N' => some '\x85'
  | '_' => some '\xa0'
  | 'L' => some '\u2028'
  | 'P' => some '\u2029'
  | _ => none

def escapeWidth? (c : Char) : Option Nat :=
  match c with
  | 'x' => some 2
  | 'u' => some 4
  | 'U' => some 8
  | _ => none

/-- The number of exactly `width` hexadecimal digits. -/
def readHex : (width value : Nat) → List Char → Option (Nat × List Char)
  | 0, value, cs => some (value, cs)
  | _ + 1, _, [] => none
  | width + 1, value, c :: rest => do readHex width (16 * value + (← Json.hexValue? c)) rest

/-- The character with a code point, if there is one. -/
def charOf? (n : Nat) : Option Char := if h : n.isValidChar then some (Char.ofNatAux n h) else none

/-- The character of an escape after its backslash, and the rest. -/
def readEscape : List Char → Option (Char × List Char)
  | [] => none
  | c :: rest =>
    match escapeWidth? c with
    | some width => do
      let (n, rest) ← readHex width 0 rest
      return (← charOf? n, rest)
    | none => (escaped? c).map (·, rest)

/-- The characters of a quoted scalar up to its closing quote, a gap or the end of the text;
`joins` when they end with an escaped line break, which is passed. -/
structure QuotedWord where
  text : List Char
  joins : Bool
  rest : List Char

def singleWord : List Char → QuotedWord
  | [] => ⟨[], false, []⟩
  | '\'' :: '\'' :: rest =>
    let w := singleWord rest
    { w with text := '\'' :: w.text }
  | c :: rest =>
    if c = '\'' || isGap c then ⟨[], false, c :: rest⟩
    else
      let w := singleWord rest
      { w with text := c :: w.text }

/-- A word between double quotes; the fuel bounds its length. -/
def doubleWord : Nat → List Char → Option QuotedWord
  | 0, _ => none
  | _ + 1, [] => some ⟨[], false, []⟩
  | fuel + 1, '\\' :: rest =>
    if rest.head?.any isBreak then some ⟨[], true, passBreak rest⟩
    else do
      let (c, rest) ← readEscape rest
      let w ← doubleWord fuel rest
      return { w with text := c :: w.text }
  | fuel + 1, c :: rest =>
    if c = '"' || isGap c then some ⟨[], false, c :: rest⟩
    else do
      let w ← doubleWord fuel rest
      return { w with text := c :: w.text }

/-- The gap after a word: what it stands for, whether a new line starts behind it, and the rest. -/
def gapAfter (w : QuotedWord) : Option (List Char × Bool × List Char) :=
  if w.joins then do
    let (breaks, column, rest) ← Gap.readLines 0 0 w.rest
    return (breaks, column == 0, rest)
  else do
    let (g, rest) ← Gap.read 0 w.rest
    return (g.text, g.isBroken && g.column == 0, rest)

/-- The words and gaps up to the closing quote, which is passed. A document mark at the start of a
line is refused. The fuel bounds the number of words. -/
def quotedText (quote : Char) (word : List Char → Option QuotedWord) :
    Nat → Bool → List Char → Option (List Char × List Char)
  | 0, _, _ => none
  | fuel + 1, lineStart, cs =>
    if cs.isEmpty || (lineStart && atDocumentMark cs) then none
    else do
      let w ← word cs
      match w.rest with
      | c :: rest =>
        if c = quote then return (w.text, rest)
        else
          let (gap, lineStart, rest) ← gapAfter w
          let (text, rest) ← quotedText quote word fuel lineStart rest
          return (w.text ++ gap ++ text, rest)
      | [] => none

/-- The text between single quotes, after the opening one. The fuel bounds its length. -/
def readSingle (fuel : Nat) (cs : List Char) : Option (List Char × List Char) :=
  quotedText '\'' (fun cs => some (singleWord cs)) fuel false cs

/-- The text between double quotes, after the opening one. The fuel bounds its length. -/
def readDouble (fuel : Nat) (cs : List Char) : Option (List Char × List Char) :=
  quotedText '"' (doubleWord fuel) fuel false cs

end AccessFilter.Yaml
