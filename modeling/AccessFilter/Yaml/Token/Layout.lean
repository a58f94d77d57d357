import AccessFilter.Yaml.Scalar.Block
import AccessFilter.Yaml.Scalar.Plain
import AccessFilter.Yaml.Token.Property

/-!
# From text to tokens

Block collections are told by indentation. That something was a key is known only at the colon
behind it, so the place where a key may have started is remembered; the marks for the key and for a
mapping it opens are put there later. A key without a mark of its own stays on one line and within
1024 octets. A text is looked at in portions, and one that holds a character which may not stand in
a text ends it.

* `Yaml.PossibleKey`    a place where a key may have started;
* `Yaml.Layout`         the tokens so far with what is open around the place reached;
* `Yaml.Layout.step`    the next token;
* `Yaml.cutAt?`         where the first portion that cannot be read starts;
* `Yaml.Token.ofText`   the tokens of a text. Where the text breaks the rules the list ends; it is
                        complete when its last token is `streamEnd`.
-/

namespace AccessFilter.Yaml

/-- A place where a key may have started, and the number of tokens before it. Where a key is
required nothing but a key may stand. -/
structure PossibleKey where
  required : Bool
  before : Nat
  position : Position

/-- Whether a key that started there would have had to end before a place. -/
def PossibleKey.isStale (k : PossibleKey) (p : Position) : Bool :=
  k.position.line < p.line || k.position.index + 1024 < p.index

/-- The tokens so far, the latest first, and their number; the indentations of the open block
collections, the innermost first; the possible key outside of flow collections, and those in the
open flow collections, the innermost first. Only the former may be required. The fuel bounds the
length of each token. A text that is cut goes on with what cannot be read. -/
structure Layout where
  rest : List Char
  fuel : Nat
  cut : Bool
  position : Position := ⟨0, 0, 0⟩
  tokens : List Token := []
  count : Nat := 0
  indents : List Nat := []
  blockKey : Option PossibleKey := none
  flowKeys : List (Option PossibleKey) := []
  keyAllowed : Bool := true
  ended : Bool := false

namespace Layout

def inFlow (s : Layout) : Bool := !s.flowKeys.isEmpty

def column (s : Layout) : Nat := s.position.column

def moveTo (s : Layout) (rest : List Char) : Layout :=
  { s with rest := rest, position := s.position.before rest s.rest }

def pass (s : Layout) : Layout :=
  match s.rest with
  | [] => s
  | c :: rest => { s with rest := rest, position := s.position.next c rest }

/-- Fails where a text is cut before its next `n + 1` characters. -/
def ahead (n : Nat) (s : Layout) : Option Layout :=
  if s.cut && (s.rest.drop n).isEmpty then none else some s

def push (s : Layout) (t : Token) : Layout :=
  { s with tokens := t :: s.tokens, count := s.count + 1 }

/-- One more token where only `before` tokens are in front. -/
def insertAt (s : Layout) (before : Nat) (t : Token) : Layout :=
  { s with tokens := s.tokens.insertIdx (s.count - before) t, count := s.count + 1 }

/-! ## possible keys -/

def key (s : Layout) : Option PossibleKey :=
  match s.flowKeys with
  | [] => s.blockKey
  | k :: _ => k

def withKey (s : Layout) (key : Option PossibleKey) : Layout :=
  match s.flowKeys with
  | [] => { s with blockKey := key }
  | _ :: ks => { s with flowKeys := key :: ks }

/-- Whether nothing but a key may stand here: at the indentation of a block collection. -/
def requiresKey (s : Layout) : Bool := !s.inFlow && s.indents.head? == some s.column

/-- Give up the possible key; a required one may not be given up. -/
def dropKey (s : Layout) : Option Layout :=
  if s.key.any (·.required) then none else some (s.withKey none)

/-- Remember this place if a key may start here. -/
def saveKey (s : Layout) : Option Layout :=
  if s.keyAllowed then
    s.dropKey.map fun t => t.withKey (some ⟨s.requiresKey, s.count, s.position⟩)
  else some s

/-- A possible key, unless it is stale; a required one may not be. -/
def freshKey (p : Position) : Option PossibleKey → Option (Option PossibleKey)
  | none => some none
  | some k => if k.isStale p then if k.required then none else some none else some (some k)

/-- Give up the keys that are stale here. Those of the outer flow collections can wait until the
inner ones end. -/
def dropStale (s : Layout) : Option Layout := do
  let s := { s with blockKey := ← freshKey s.position s.blockKey }
  return s.withKey (← freshKey s.position s.key)

/-- The tokens that no later mark can come in front of. -/
def settled (s : Layout) : List Token :=
  let pending := (s.blockKey :: s.flowKeys).filterMap fun k =>
    (k.filter (!·.isStale s.position)).map (·.before)
  s.tokens.reverse.take (pending.foldl min s.count)

/-! ## block collections -/

/-- Open a block collection at a column that is indented more than the innermost one. -/
def openBlock (s : Layout) (column before : Nat) (t : Token) : Layout :=
  if !s.inFlow && s.indents.head?.all (· < column) then
    { s.insertAt before t with indents := column :: s.indents }
  else s

/-- How many of the innermost block collections are indented more than a column; all of them
without a column. -/
def deeper (column : Option Nat) (indents : List Nat) : Nat :=
  (indents.takeWhile fun i => column.all (· < i)).length

/-- Close the block collections that are indented more than a column. -/
def closeBlocks (s : Layout) (column : Option Nat) : Layout :=
  if s.inFlow then s
  else
    let n := deeper column s.indents
    { s with
      tokens := List.replicate n Token.blockEnd ++ s.tokens
      count := s.count + n
      indents := s.indents.drop n }

/-! ## gaps between tokens -/

/-- Passes blanks, comments and line breaks; also tells whether a key may start behind them. Tabs
count as blanks in flow collections and where no key may start. A byte order mark may start a
line. -/
def passGaps (flow : Bool) : (comment keyAllowed lineStart : Bool) → List Char → Bool × List Char
  | _, allowed, _, [] => (allowed, [])
  | _, allowed, _, '\r' :: '\n' :: rest => passGaps flow false (allowed || !flow) true rest
  | comment, allowed, lineStart, c :: rest =>
    if isBreak c then passGaps flow false (allowed || !flow) true rest
    else if comment then passGaps flow true allowed false rest
    else if lineStart && c = '\ufeff' then passGaps flow false allowed false rest
    else if c = ' ' || (c = '\t' && (flow || !allowed)) then passGaps flow false allowed false rest
    else if c = '#' then passGaps flow true allowed false rest
    else (allowed, c :: rest)

def toToken (s : Layout) : Layout :=
  let (allowed, rest) := passGaps s.inFlow false s.keyAllowed (s.column == 0) s.rest
  { s.moveTo rest with keyAllowed := allowed }

/-! ## the tokens -/

def endOfText (s : Layout) : Option Layout := do
  let p := s.position
  let s := if p.column = 0 then s else { s with position := ⟨p.line + 1, 0, p.index⟩ }
  let s ← (s.closeBlocks none).dropKey
  return { s.push .streamEnd with keyAllowed := false, ended := true }

def directive (s : Layout) : Option Layout := do
  let s ← (s.closeBlocks none).dropKey
  let (token, rest) ← readDirective s.fuel (s.rest.drop 1)
  return { (s.moveTo rest).push token with keyAllowed := false }

def documentMark (s : Layout) (t : Token) : Option Layout := do
  let s ← (s.closeBlocks none).dropKey
  return { s.pass.pass.pass.push t with keyAllowed := false }

def mark (s : Layout) (t : Token) : Layout := s.pass.push t

def openFlow (s : Layout) (t : Token) : Option Layout := do
  let s ← s.saveKey
  return { s.mark t with flowKeys := none :: s.flowKeys, keyAllowed := true }

def closeFlow (s : Layout) (t : Token) : Option Layout := do
  let s ← s.dropKey
  return { s.mark t with flowKeys := s.flowKeys.drop 1, keyAllowed := false }

/-- A comma between the items of a flow collection. -/
def flowEntry (s : Layout) : Option Layout := do
  let s ← s.dropKey
  return { s.mark .flowEntry with keyAllowed := true }

/-- The dash before an item of a block sequence. -/
def blockEntry (s : Layout) : Option Layout := do
  if !s.inFlow && !s.keyAllowed then none
  let s ← (s.openBlock s.column s.count .blockSequence).dropKey
  return { s.mark .blockEntry with keyAllowed := true }

/-- The question mark before a key. -/
def keyMark (s : Layout) : Option Layout := do
  if !s.inFlow && !s.keyAllowed then none
  let s ← (s.openBlock s.column s.count .blockMapping).dropKey
  return { s.mark .key with keyAllowed := !s.inFlow }

/-- The colon before a value: what may have been a key is one. -/
def valueMark (s : Layout) : Option Layout :=
  match s.key with
  | some k =>
    let s := (s.insertAt k.before .key).openBlock k.position.column k.before .blockMapping
    some { (s.mark .value).withKey none with keyAllowed := false }
  | none =>
    if !s.inFlow && !s.keyAllowed then none
    else
      let s := s.openBlock s.column s.count .blockMapping
      some { s.mark .value with keyAllowed := !s.inFlow }

/-- A token that may start a key and after which none may start. -/
def word (s : Layout) (read : Layout → Option (Token × List Char)) : Option Layout := do
  let s ← s.saveKey
  let (token, rest) ← read s
  return { (s.moveTo rest).push token with keyAllowed := false }

/-- An anchor or an alias. -/
def readNamed (token : String → Token) (s : Layout) : Option (Token × List Char) := do
  let (name, rest) ← readAnchor (s.rest.drop 1)
  return (token name, rest)

def readQuoted (style : ScalarStyle) (read : Nat → List Char → Option (List Char × List Char))
    (s : Layout) : Option (Token × List Char) := do
  let (text, rest) ← read s.fuel (s.rest.drop 1)
  return (.scalar style (String.ofList text), rest)

def blockScalar (s : Layout) (style : ScalarStyle) : Option Layout := do
  let s ← s.dropKey
  let (text, rest) ← readBlock (style == .literal) s.indents.head? s.fuel (s.rest.drop 1)
  return { (s.moveTo rest).push (.scalar style (String.ofList text)) with keyAllowed := true }

/-- The column that the further lines of a plain scalar must reach. -/
def plainLimit (s : Layout) : Nat :=
  match s.indents with
  | [] => 0
  | i :: _ => i + 1

/-- A plain scalar. One that ended at a line end may be followed by a key. -/
def plainScalar (s : Layout) : Option Layout := do
  let s ← s.saveKey
  let t ← readPlain s.inFlow s.plainLimit s.fuel s.rest
  return { (s.moveTo t.rest).push (.scalar .plain (String.ofList t.text)) with
    keyAllowed := t.crossesLines }

/-- Whether a plain scalar may start with a character that is a mark elsewhere. -/
def startsPlain (c : Char) : Bool := c ∉ ['#', '&', '*', '!', '|', '>', '\'', '"', '%', '@', '\x60']

def tokenAt (s : Layout) (c : Char) (rest : List Char) : Option Layout :=
  let marked := s.inFlow || atGap rest
  if s.column = 0 && c = '%' then s.directive
  else if s.column = 0 && atDocumentMark s.rest then
    s.documentMark (if c = '-' then .documentStart else .documentEnd)
  else if c = '[' then s.openFlow .openSequence
  else if c = '\x7b' then s.openFlow .openMapping
  else if c = ']' then s.closeFlow .closeSequence
  else if c = '\x7d' then s.closeFlow .closeMapping
  else if c = ',' then s.flowEntry
  else if c = '-' && atGap rest then s.blockEntry
  else if c = '?' && marked then s.keyMark
  else if c = ':' && marked then s.valueMark
  else if c = '*' then s.word (readNamed .alias)
  else if c = '&' then s.word (readNamed .anchor)
  else if c = '!' then s.word fun s => readTag s.inFlow s.fuel s.rest
  else if c = '|' && !s.inFlow then s.blockScalar .literal
  else if c = '>' && !s.inFlow then s.blockScalar .folded
  else if c = '\'' then s.word (readQuoted .singleQuoted readSingle)
  else if c = '"' then s.word (readQuoted .doubleQuoted readDouble)
  else if startsPlain c && !isGap c then s.plainScalar
  else none

def step (s : Layout) : Option Layout := do
  let s ← s.toToken.dropStale
  let s ← (s.closeBlocks (some s.column)).ahead 3
  let s ← match s.rest with
    | [] => s.endOfText
    | c :: rest => s.tokenAt c rest
  (← s.ahead 0).dropStale

/-- The further tokens, up to the end or as far as the text follows the rules; the fuel bounds the
number of steps. -/
def run : Nat → Layout → List Token
  | 0, s => s.settled
  | fuel + 1, s =>
    if s.ended then s.tokens.reverse
    else
      match s.step with
      | none => s.settled
      | some s => run fuel s

end Layout

/-! ## whole texts -/

/-- A text is read in portions of so many octets. -/
def portionSize : Nat := 16384

/-- The number of characters before the portion of the first one that may not stand in a text.
`room` octets are left of the present portion, `index` characters have been read, `start` of them
before that portion. -/
def cutAt? (room index start : Nat) : List Char → Option Nat
  | [] => none
  | c :: cs =>
    let fits := c.utf8Size ≤ room
    let start := if fits then start else index
    if isAllowed c then
      cutAt? ((if fits then room else portionSize) - c.utf8Size) (index + 1) start cs
    else some start

/-- The tokens of a text. A portion with a character that may not stand in a text cannot be read. -/
def Token.ofText (text : String) : List Token :=
  let cs := text.toList
  let (cs, cut) := match cutAt? portionSize 0 0 cs with
    | some n => (cs.take n, true)
    | none => (cs, false)
  Layout.run (cs.length + 2) { rest := cs, fuel := cs.length + 1, cut := cut }

end AccessFilter.Yaml
