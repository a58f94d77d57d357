import AccessFilter.Value.Basic
import AccessFilter.Yaml.Node
import AccessFilter.Yaml.Token.Layout

/-!
# From tokens to nodes

Every function takes the tokens that are left and gives a node with what is left behind it. Where
the tokens end or break the rules the node is `broken`, and no tokens are left, so that every open
collection ends with a `broken` node too.

* `Yaml.Source`             the tokens that are left, the anchors so far and the tag handles;
* `Yaml.Source.node`        a node;
* `Yaml.Document.ofTokens`  the first document of a token list;
* `Yaml.Document.ofText`    the first document of a text.
-/

namespace AccessFilter.Yaml

/-- The tokens that are left, the anchors given so far and the handles of tags. -/
structure Source where
  tokens : List Token
  anchors : Fields Nat := []
  handles : Fields (List UInt8) := []

/-- The anchor and the tag written before a node. -/
structure Properties where
  anchor : Option String := none
  tag : Option (String × List UInt8) := none

namespace Source

def stop (s : Source) : Source := { s with tokens := [] }

def goOn (s : Source) (tokens : List Token) : Source := { s with tokens := tokens }

/-- The anchor and the tag before a node, in either order. -/
def properties (s : Source) : Properties × Source :=
  match s.tokens with
  | .anchor a :: .tag h t :: rest => (⟨some a, some (h, t)⟩, s.goOn rest)
  | .tag h t :: .anchor a :: rest => (⟨some a, some (h, t)⟩, s.goOn rest)
  | .anchor a :: rest => (⟨some a, none⟩, s.goOn rest)
  | .tag h t :: rest => (⟨none, some (h, t)⟩, s.goOn rest)
  | _ => ({}, s)

/-- What a handle and a suffix ask for, if the handle is known. -/
def tag? (s : Source) : Option (String × List UInt8) → Option (Option Tag)
  | none => some none
  | some (handle, suffix) =>
    if handle.isEmpty then some (some (.ofOctets suffix))
    else (Fields.find? handle s.handles).map fun e => some (.ofOctets (e ++ suffix))

/-- Give a number to an anchor: the number of different names before it. -/
def bind (s : Source) : Option String → Option Nat × Source
  | none => (none, s)
  | some name =>
    (some s.anchors.length, { s with anchors := Fields.put name s.anchors.length s.anchors })

/-- Whether an item of a block sequence is left out before a token. -/
def endsItem (t : Token) : Bool := t = .blockEntry || t = .blockEnd

def endsFlatItem (t : Token) : Bool := t = .blockEntry || t = .key || t = .value || t = .blockEnd

def endsBlockPart (t : Token) : Bool := t = .key || t = .value || t = .blockEnd

def endsFlowKey (t : Token) : Bool := t = .value || t = .flowEntry || t = .closeMapping

def endsFlowValue (t : Token) : Bool := t = .flowEntry || t = .closeMapping

def endsPairKey (t : Token) : Bool := t = .value || t = .flowEntry || t = .closeSequence

def endsPairValue (t : Token) : Bool := t = .flowEntry || t = .closeSequence

/-- The tokens at the next item of a flow collection: a comma stands before every item but the
first one. -/
def flowItem (first : Bool) (s : Source) : Source :=
  if first then s
  else
    match s.tokens with
    | .flowEntry :: rest => s.goOn rest
    | _ => s.stop

mutual

/-- A node. In the value of a block mapping a sequence may stand without indentation. The fuel
bounds the depth of the recursion. -/
def node : Nat → (block flat : Bool) → Source → Node × Source
  | 0, _, _, s => (.broken, s.stop)
  | fuel + 1, block, flat, s =>
    match s.tokens with
    | .alias name :: rest =>
      match Fields.find? name s.anchors with
      | some a => (.alias a, s.goOn rest)
      | none => (.broken, s.stop)
    | _ =>
      let (p, s) := s.properties
      match s.tag? p.tag, s.tokens with
      | none, _ => (.broken, s.stop)
      | _, [] => (.broken, s)
      | some tag, t :: rest =>
        let (anchor, bound) := s.bind p.anchor
        if flat && t = .blockEntry then
          let (items, s) := flatItems fuel bound
          (.sequence anchor tag items, s)
        else
          match t with
          | .scalar style text => (.scalar anchor tag style text, bound.goOn rest)
          | .openSequence =>
            let (items, s) := flowItems fuel true (bound.goOn rest)
            (.sequence anchor tag items, s)
          | .openMapping =>
            let (pairs, s) := flowPairs fuel true (bound.goOn rest)
            (.mapping anchor tag pairs, s)
          | .blockSequence =>
            if block then
              let (items, s) := blockItems fuel (bound.goOn rest)
              (.sequence anchor tag items, s)
            else (.broken, s.stop)
          | .blockMapping =>
            if block then
              let (pairs, s) := blockPairs fuel (bound.goOn rest)
              (.mapping anchor tag pairs, s)
            else (.broken, s.stop)
          | _ =>
            if p.anchor.isSome || tag.isSome then (.scalar anchor tag .plain "", bound)
            else (.broken, s.stop)

/-- A node, or the empty node where a token tells that it is left out. -/
def nodeUnless : Nat → (leftOut : Token → Bool) → (block flat : Bool) → Source → Node × Source
  | 0, _, _, _, s => (.broken, s.stop)
  | fuel + 1, leftOut, block, flat, s =>
    match s.tokens with
    | [] => (.broken, s)
    | t :: _ => if leftOut t then (.empty, s) else node fuel block flat s

/-- What stands behind a key: a value after its mark, otherwise the empty node. -/
def valueAfter : Nat → (leftOut : Token → Bool) → (block flat : Bool) → Source → Node × Source
  | 0, _, _, _, s => (.broken, s.stop)
  | fuel + 1, leftOut, block, flat, s =>
    match s.tokens with
    | [] => (.broken, s)
    | .value :: rest => nodeUnless fuel leftOut block flat (s.goOn rest)
    | _ => (.empty, s)

def blockItems : Nat → Source → List Node × Source
  | 0, s => ([.broken], s.stop)
  | fuel + 1, s =>
    match s.tokens with
    | .blockEntry :: rest =>
      let (n, s) := nodeUnless fuel endsItem true false (s.goOn rest)
      let (ns, s) := blockItems fuel s
      (n :: ns, s)
    | .blockEnd :: rest => ([], s.goOn rest)
    | _ => ([.broken], s.stop)

/-- The items of a sequence without indentation. -/
def flatItems : Nat → Source → List Node × Source
  | 0, s => ([.broken], s.stop)
  | fuel + 1, s =>
    match s.tokens with
    | [] => ([.broken], s)
    | .blockEntry :: rest =>
      let (n, s) := nodeUnless fuel endsFlatItem true false (s.goOn rest)
      let (ns, s) := flatItems fuel s
      (n :: ns, s)
    | _ => ([], s)

def blockPairs : Nat → Source → List (Node × Node) × Source
  | 0, s => ([(.broken, .broken)], s.stop)
  | fuel + 1, s =>
    match s.tokens with
    | .key :: rest =>
      let (k, s) := nodeUnless fuel endsBlockPart true true (s.goOn rest)
      let (v, s) := valueAfter fuel endsBlockPart true true s
      let (ps, s) := blockPairs fuel s
      ((k, v) :: ps, s)
    | .blockEnd :: rest => ([], s.goOn rest)
    | _ => ([(.broken, .broken)], s.stop)

def flowItems : Nat → (first : Bool) → Source → List Node × Source
  | 0, _, s => ([.broken], s.stop)
  | fuel + 1, first, s =>
    match s.tokens with
    | .closeSequence :: rest => ([], s.goOn rest)
    | _ =>
      let s := flowItem first s
      match s.tokens with
      | [] => ([.broken], s)
      | .closeSequence :: rest => ([], s.goOn rest)
      | .key :: rest =>
        let (pairs, s) := singlePair fuel (s.goOn rest)
        let (ns, s) := flowItems fuel false s
        (.mapping none none pairs :: ns, s)
      | _ =>
        let (n, s) := node fuel false false s
        let (ns, s) := flowItems fuel false s
        (n :: ns, s)

/-- The pair of a mapping without marks of its own in a flow sequence. A left-out key takes the
token behind it with it. -/
def singlePair : Nat → Source → List (Node × Node) × Source
  | 0, s => ([(.broken, .broken)], s.stop)
  | fuel + 1, s =>
    match s.tokens with
    | [] => ([(.broken, .broken)], s)
    | t :: rest =>
      let (k, s) :=
        if endsPairKey t then (.empty, s.goOn rest) else node fuel false false s
      let (v, s) := valueAfter fuel endsPairValue false false s
      ((k, v) :: (if s.tokens.isEmpty then [(.broken, .broken)] else []), s)

def flowPairs : Nat → (first : Bool) → Source → List (Node × Node) × Source
  | 0, _, s => ([(.broken, .broken)], s.stop)
  | fuel + 1, first, s =>
    match s.tokens with
    | .closeMapping :: rest => ([], s.goOn rest)
    | _ =>
      let s := flowItem first s
      match s.tokens with
      | [] => ([(.broken, .broken)], s)
      | .closeMapping :: rest => ([], s.goOn rest)
      | .key :: rest =>
        let (k, s) := nodeUnless fuel endsFlowKey false false (s.goOn rest)
        let (v, s) := valueAfter fuel endsFlowValue false false s
        let (ps, s) := flowPairs fuel false s
        ((k, v) :: ps, s)
      | _ =>
        let (k, s) := node fuel false false s
        let v := if s.tokens.isEmpty then .broken else .empty
        let (ps, s) := flowPairs fuel false s
        ((k, v) :: ps, s)

end

end Source

/-! ## documents -/

/-- What the directives before a document say. -/
structure Directives where
  version : Bool := false
  handles : Fields (List UInt8) := []

/-- The directives before a document. A version or a handle may be given once, and the version must
be 1.1 or 1.2. -/
def Directives.read (d : Directives) : List Token → Option (Directives × List Token)
  | .version major minor :: rest =>
    if d.version || major ≠ 1 || (minor ≠ 1 && minor ≠ 2) then none
    else Directives.read { d with version := true } rest
  | .tagHandle handle expansion :: rest =>
    if (Fields.find? handle d.handles).isSome then none
    else Directives.read { d with handles := d.handles ++ [(handle, expansion)] } rest
  | tokens => some (d, tokens)

/-- The handles of a document: those of its directives and two that are always known. -/
def Directives.allHandles (d : Directives) : Fields (List UInt8) :=
  d.handles ++ [("!", octetsOf "!"), ("!!", octetsOf coreTags)]

namespace Document

/-- Whether nothing but document marks and the end is left behind a root. -/
def isLast (s : Source) : Bool := s.tokens.dropWhile (· = .documentEnd) == [.streamEnd]

def withRoot (d : Directives) (tokens : List Token) : Document :=
  let (root, s) := Source.node (4 * tokens.length + 8) true false ⟨tokens, [], d.allHandles⟩
  ⟨root, isLast s⟩

def endsRoot : Token → Bool
  | .version _ _ => true
  | .tagHandle _ _ => true
  | .documentStart => true
  | .documentEnd => true
  | .streamEnd => true
  | _ => false

/-- Where a document breaks off at its start. -/
def broken : Document := ⟨.broken, false⟩

/-- A document with directives or an opening mark. -/
def marked (tokens : List Token) : Document :=
  match Directives.read {} tokens with
  | some (d, .documentStart :: tokens) =>
    match tokens with
    | [] => broken
    | t :: _ => if endsRoot t then ⟨.empty, isLast ⟨tokens, [], []⟩⟩ else withRoot d tokens
  | _ => broken

/-- The first document of a token list. An empty text is an empty mapping. -/
def ofTokens (tokens : List Token) : Document :=
  match tokens with
  | [] => broken
  | .streamEnd :: _ => ⟨.mapping none none [], true⟩
  | .version _ _ :: _ => marked tokens
  | .tagHandle _ _ :: _ => marked tokens
  | .documentStart :: _ => marked tokens
  | _ => withRoot {} tokens

def ofText (text : String) : Document := ofTokens (Token.ofText text)

end Document

end AccessFilter.Yaml
