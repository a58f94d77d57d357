import AccessFilter.Yaml.Scalar.Gap

/-!
# Plain scalars

A plain scalar is a run of words with gaps between them. It ends at a colon before a gap, at a
comment, at a document mark, where a line is indented too little, and in a flow collection at the
marks of the collection.

* `Yaml.plainWord`  the characters up to the next gap or the end of the scalar;
* `Yaml.readPlain`  the text of a scalar.
-/

namespace AccessFilter.Yaml

/-- Whether a flow mark or a question mark is at the head of a text. -/
def atFlowMark : List Char → Bool
  | [] => false
  | c :: _ => isFlowMark c || c = '?'

/-- The characters up to the next gap or the end of the scalar. In a flow collection a colon right
before a flow mark is refused. -/
def plainWord (flow : Bool) : List Char → Option (List Char × List Char)
  | [] => some ([], [])
  | c :: rest =>
    if isGap c then some ([], c :: rest)
    else if flow && c = ':' && atFlowMark rest then none
    else if (c = ':' && atGap rest) || (flow && isFlowMark c) then some ([], c :: rest)
    else (plainWord flow rest).map fun (w, r) => (c :: w, r)

/-- A plain scalar, or the part of one after a word: its text, whether its last gap crosses lines,
and the rest after that gap. -/
structure PlainText where
  text : List Char
  crossesLines : Bool
  rest : List Char

def plainEnds (flow : Bool) (limit : Nat) (g : Gap) (rest : List Char) : Bool :=
  (g.isBroken && ((!flow && g.column < limit) || (g.column == 0 && atDocumentMark rest))) ||
    rest.head? == some '#'

/-- The further words of a scalar; the fuel bounds their number. -/
def plainTail (flow : Bool) (limit : Nat) : Nat → List Char → Option PlainText
  | 0, _ => none
  | fuel + 1, cs => do
    let (g, rest) ← Gap.read limit cs
    if g.blanks.isEmpty && !g.isBroken then return ⟨[], false, cs⟩
    else if plainEnds flow limit g rest then return ⟨[], g.isBroken, rest⟩
    else
      let (w, rest') ← plainWord flow rest
      if w.isEmpty then return ⟨[], g.isBroken, rest⟩
      else
        let tail ← plainTail flow limit fuel rest'
        return { tail with text := g.text ++ w ++ tail.text }

/-- A plain scalar whose further lines reach at least the column `limit`. The fuel bounds the number
of its words. -/
def readPlain (flow : Bool) (limit fuel : Nat) (cs : List Char) : Option PlainText := do
  let (w, rest) ← plainWord flow cs
  let tail ← plainTail flow limit fuel rest
  return { tail with text := w ++ tail.text }

end AccessFilter.Yaml
