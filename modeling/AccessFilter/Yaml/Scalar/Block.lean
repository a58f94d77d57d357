import AccessFilter.Yaml.Character

/-!
# Block scalars

The lines after a header, as far as they are indented enough. The header tells how the line breaks
at the end are kept and may give the indentation, which is otherwise that of the first line that is
not blank. A literal scalar keeps its line breaks; a folded one turns a single break between two
lines that do not start with a blank into a blank.

* `Yaml.BlockHeader.read`  the header after its mark;
* `Yaml.readBlock`         the text of a block scalar after its mark.
-/

namespace AccessFilter.Yaml

/-- What happens to the line breaks at the end: all dropped, one kept, all kept. -/
inductive Chomping where
  | strip
  | clip
  | keep
deriving DecidableEq

structure BlockHeader where
  chomping : Chomping
  indentation : Option Nat

namespace BlockHeader

def readChomping : List Char → Option Chomping × List Char
  | '+' :: rest => (some .keep, rest)
  | '-' :: rest => (some .strip, rest)
  | cs => (none, cs)

/-- The indentation digit, if there is one; zero is refused. -/
def readIndentation : List Char → Option (Option Nat × List Char)
  | [] => some (none, [])
  | c :: rest =>
    if c = '0' then none
    else if c.isDigit then some (some (c.toNat - '0'.toNat), rest)
    else some (none, c :: rest)

/-- The two marks, in either order. -/
def readMarks (cs : List Char) : Option (BlockHeader × List Char) := do
  match readChomping cs with
  | (some chomping, cs) =>
    let (indentation, cs) ← readIndentation cs
    return (⟨chomping, indentation⟩, cs)
  | (none, cs) =>
    let (indentation, cs) ← readIndentation cs
    if indentation.isSome then
      let (chomping, cs) := readChomping cs
      return (⟨chomping.getD .clip, indentation⟩, cs)
    else return (⟨.clip, none⟩, cs)

/-- A header and the text after its line. -/
def read (cs : List Char) : Option (BlockHeader × List Char) := do
  let (header, cs) ← readMarks cs
  return (header, ← passLine cs)

end BlockHeader

/-! ## lines -/

structure BlockLead where
  breaks : List Char
  column : Nat
  widest : Nat
  rest : List Char

/-- Passes empty lines and at most `indent` columns of the next line, any number of them when
`indent` is not known. A tab among these columns is refused. -/
def readLead (indent : Option Nat) (column widest : Nat) : List Char → Option BlockLead
  | [] => some ⟨[], column, max widest column, []⟩
  | '\r' :: '\n' :: rest =>
    (readLead indent 0 (max widest column) rest).map fun l => { l with breaks := '\n' :: l.breaks }
  | c :: rest =>
    let inside := indent.all (column < ·)
    if c = ' ' && inside then readLead indent (column + 1) widest rest
    else if c = '\t' && inside then none
    else if isBreak c then
      (readLead indent 0 (max widest column) rest).map fun l =>
        { l with breaks := readBreak c :: l.breaks }
    else some ⟨[], column, max widest column, c :: rest⟩

def lineBreak : List Char → List Char
  | [] => []
  | c :: _ => [readBreak c]

/-- What stands between two lines: the break after the first, and the empty lines. -/
def blockJoint (literal foldable : Bool) (lineEnd breaks : List Char) : List Char :=
  if !literal && lineEnd == ['\n'] && foldable then
    if breaks.isEmpty then [' '] else breaks
  else lineEnd ++ breaks

/-- The lines from one that is indented enough to the last; `lineEnd` is the break after the line
before, `blankBefore` whether that line started with a blank. The fuel bounds their number. -/
def readLines (literal : Bool) (chomping : Chomping) (indent : Nat) :
    Nat → Bool → List Char → BlockLead → Option (List Char × List Char)
  | 0, _, _, _ => none
  | fuel + 1, blankBefore, lineEnd, lead =>
    if lead.column == indent && !lead.rest.isEmpty then do
      let blank := lead.rest.head?.any isBlank
      let line := lead.rest.takeWhile fun c => !isBreak c
      let after := lead.rest.dropWhile fun c => !isBreak c
      let next ← readLead (some indent) 0 0 (passBreak after)
      let (text, rest) ← readLines literal chomping indent fuel blank (lineBreak after) next
      return (blockJoint literal (!blankBefore && !blank) lineEnd lead.breaks ++ line ++ text, rest)
    else
      let tail := match chomping with
        | .strip => []
        | .clip => lineEnd
        | .keep => lineEnd ++ lead.breaks
      some (tail, lead.rest)

/-- The text of a block scalar after its mark, and the rest. `parent` is the indentation of the
collection around it, if any. The fuel bounds the number of lines. -/
def readBlock (literal : Bool) (parent : Option Nat) (fuel : Nat) (cs : List Char) :
    Option (List Char × List Char) := do
  let (header, cs) ← BlockHeader.read cs
  let given := header.indentation.map fun n => parent.getD 0 + n
  let lead ← readLead given 0 0 cs
  let least := match parent with
    | some p => p + 1
    | none => 1
  let indent := given.getD (max lead.widest least)
  readLines literal header.chomping indent fuel false [] lead

end AccessFilter.Yaml
