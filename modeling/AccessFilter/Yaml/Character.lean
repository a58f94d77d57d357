/-!
# Character classes of YAML text

* `Yaml.isAllowed`       characters that may stand in a text at all;
* `Yaml.isBreak`         line breaks; `Yaml.passBreak` passes over one, a carriage return and a line
                         feed together being one break;
* `Yaml.isGap`           blanks and line breaks;
* `Yaml.atDocumentMark`  whether `---` or `...` stands alone at the head of a text;
* `Yaml.Position`        a place in a text.
-/

namespace AccessFilter.Yaml

/-- Whether a character may stand in a text: tabs, line breaks and everything that is no control. -/
def isAllowed (c : Char) : Bool :=
  let n := c.toNat
  n == 0x09 || n == 0x0A || n == 0x0D || (0x20 ≤ n && n ≤ 0x7E) || n == 0x85 ||
    (0xA0 ≤ n && n ≤ 0xD7FF) || (0xE000 ≤ n && n ≤ 0xFFFD) || 0x10000 ≤ n

def isBlank (c : Char) : Bool := c = ' ' || c = '\t'

def isBreak (c : Char) : Bool :=
  c = '\n' || c = '\r' || c = '\x85' || c = '\u2028' || c = '\u2029'

/-- Whether a character is a blank or ends a line. -/
def isGap (c : Char) : Bool := isBlank c || isBreak c

/-- Whether a character may stand in the name of an anchor, a tag handle or a directive. -/
def isWord (c : Char) : Bool := c.isAlphanum || c = '_' || c = '-'

/-- Whether a character marks the structure of a flow collection. -/
def isFlowMark (c : Char) : Bool := c = ',' || c = '[' || c = ']' || c = '\x7b' || c = '\x7d'

/-- Whether a text is at its end or at a character of a class. -/
def atEndOr (p : Char → Bool) : List Char → Bool
  | [] => true
  | c :: _ => p c

def atGap : List Char → Bool := atEndOr isGap

def atBreak : List Char → Bool := atEndOr isBreak

/-- How a line break reads: as a line feed, apart from the two separators of Unicode. -/
def readBreak (c : Char) : Char := if c = '\u2028' || c = '\u2029' then c else '\n'

/-- What is left after the line break at the head of a text. -/
def passBreak : List Char → List Char
  | '\r' :: '\n' :: rest => rest
  | _ :: rest => rest
  | [] => []

/-- What is left after the rest of a line that holds only blanks and a comment. -/
def passLine (cs : List Char) : Option (List Char) :=
  let cs := match cs.dropWhile isBlank with
    | '#' :: rest => rest.dropWhile fun c => !isBreak c
    | cs => cs
  if atBreak cs then some (passBreak cs) else none

/-- Whether a line at the head of a text opens or closes a document: three dashes or three dots
with nothing directly behind. -/
def atDocumentMark : List Char → Bool
  | '-' :: '-' :: '-' :: rest => atGap rest
  | '.' :: '.' :: '.' :: rest => atGap rest
  | _ => false

/-! ## positions -/

/-- Equality of two texts. Where one is known to be a part of the other by its place in memory, no
character is looked at. -/
def decideSame : (a b : List Char) → Decidable (a = b)
  | [], [] => isTrue rfl
  | [], _ :: _ => isFalse (by simp)
  | _ :: _, [] => isFalse (by simp)
  | a :: as, b :: bs =>
    withPtrEqDecEq (a :: as) (b :: bs) fun _ =>
      if h : a = b then
        match decideSame as bs with
        | isTrue t => isTrue (by rw [h, t])
        | isFalse t => isFalse (by simp [t])
      else isFalse (by simp [h])

/-- A place in a text: the line, the column in characters and the index in octets. -/
structure Position where
  line : Nat
  column : Nat
  index : Nat

namespace Position

/-- The place after a character. A carriage return before a line feed leaves the line to that. -/
def next (p : Position) (c : Char) (rest : List Char) : Position :=
  let index := p.index + c.utf8Size
  if c = '\r' && rest.head? == some '\n' then ⟨p.line, p.column, index⟩
  else if isBreak c then ⟨p.line + 1, 0, index⟩
  else ⟨p.line, p.column + 1, index⟩

/-- The place where `rest` is left of a text that starts at a place. -/
def before (rest : List Char) (p : Position) : List Char → Position
  | [] => p
  | c :: cs =>
    match decideSame (c :: cs) rest with
    | isTrue _ => p
    | isFalse _ => before rest (p.next c cs) cs

end Position

end AccessFilter.Yaml
