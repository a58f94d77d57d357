import AccessFilter.Yaml.Character

/-!
# Gaps between the words of a scalar

A gap on one line stands for its blanks. A gap with one line break stands for a blank, one with
more stands for the breaks after the first. Blanks around line breaks do not count.

* `Yaml.Gap.read`   the gap at the head of a text;
* `Yaml.Gap.text`   what a gap stands for.
-/

namespace AccessFilter.Yaml

/-- Blanks before the first line break, the line breaks, and the column after the last one. -/
structure Gap where
  blanks : List Char
  breaks : List Char
  column : Nat

namespace Gap

def empty : Gap := ⟨[], [], 0⟩

def isBroken (g : Gap) : Bool := !g.breaks.isEmpty

def consBlank (c : Char) (g : Gap) : Gap := { g with blanks := c :: g.blanks }

/-- The lines after the first break: line breaks, the column reached and the rest. Blanks do not
count. A tab before the column `limit` is refused. -/
def readLines (limit column : Nat) : List Char → Option (List Char × Nat × List Char)
  | [] => some ([], column, [])
  | '\r' :: '\n' :: rest => (readLines limit 0 rest).map fun (bs, r) => ('\n' :: bs, r)
  | c :: rest =>
    if c = '\t' && column < limit then none
    else if isBlank c then readLines limit (column + 1) rest
    else if isBreak c then (readLines limit 0 rest).map fun (bs, r) => (readBreak c :: bs, r)
    else some ([], column, c :: rest)

/-- The gap at the head of a text, with the rest. -/
def read (limit : Nat) : List Char → Option (Gap × List Char)
  | [] => some (empty, [])
  | c :: rest =>
    if isBlank c then (read limit rest).map fun (g, r) => (g.consBlank c, r)
    else if isBreak c then
      (readLines limit 0 (c :: rest)).map fun (bs, column, r) => (⟨[], bs, column⟩, r)
    else some (empty, c :: rest)

/-- What a gap stands for. -/
def text (g : Gap) : List Char :=
  match g.breaks with
  | [] => g.blanks
  | ['\n'] => [' ']
  | '\n' :: more => more
  | separators => separators

end Gap

end AccessFilter.Yaml
