import AccessFilter.Yaml.Scalar.Quoted
import AccessFilter.Yaml.Token

/-!
# Anchors, tags and directives

* `Yaml.readAnchor`     the name of an anchor or an alias;
* `Yaml.readTag`        a tag: `!suffix`, `!handle!suffix` or `!<whole tag>`;
* `Yaml.readDirective`  a directive line: the version of the format, or a tag handle.
-/

namespace AccessFilter.Yaml

def spanWord (cs : List Char) : List Char × List Char := (cs.takeWhile isWord, cs.dropWhile isWord)

/-! ## anchors -/

/-- Whether a text may follow the name of an anchor. -/
def mayFollowAnchor : List Char → Bool :=
  atEndOr fun c => isGap c || c ∈ ['?', ':', ',', ']', '\x7d', '%', '@', '\x60']

/-- The name of an anchor or an alias, after its mark. -/
def readAnchor (cs : List Char) : Option (String × List Char) :=
  let (name, rest) := spanWord cs
  if name.isEmpty || !mayFollowAnchor rest then none else some (String.ofList name, rest)

/-! ## tags -/

/-- Whether a character may stand in a tag as it is; more of them may in a whole tag. -/
def isTagChar (whole : Bool) (c : Char) : Bool :=
  isWord c || c ∈ [';', '/', '?', ':', '@', '&', '=', '+', '$', '.', '!', '~', '*', '\'', '(', ')'] ||
    (whole && c ∈ [',', '[', ']'])

/-- An octet written as a percent sign and two hexadecimal digits. -/
def readOctet : List Char → Option (UInt8 × List Char)
  | '%' :: a :: b :: rest => do
    return (UInt8.ofNat (16 * (← Json.hexValue? a) + (← Json.hexValue? b)), rest)
  | _ => none

/-- The number of octets that belong to a leading one. -/
def furtherOctets? (n : UInt8) : Option Nat :=
  if n < 0x80 then some 0
  else if 0xC0 ≤ n ∧ n < 0xE0 then some 1
  else if 0xE0 ≤ n ∧ n < 0xF0 then some 2
  else if 0xF0 ≤ n ∧ n < 0xF8 then some 3
  else none

def readFurther : (count : Nat) → List Char → Option (List UInt8 × List Char)
  | 0, cs => some ([], cs)
  | count + 1, cs => do
    let (n, cs) ← readOctet cs
    if 0x80 ≤ n ∧ n < 0xC0 then
      let (ns, cs) ← readFurther count cs
      return (n :: ns, cs)
    else none

/-- A leading octet with those that belong to it. They need not be a character. -/
def readOctets (cs : List Char) : Option (List UInt8 × List Char) := do
  let (n, cs) ← readOctet cs
  let (ns, cs) ← readFurther (← furtherOctets? n) cs
  return (n :: ns, cs)

/-- The octets of a tag; the fuel bounds the number of characters. -/
def readTagOctets (whole : Bool) : Nat → List Char → Option (List UInt8 × List Char)
  | 0, _ => none
  | _ + 1, [] => some ([], [])
  | fuel + 1, c :: rest =>
    if c = '%' then do
      let (octets, rest) ← readOctets (c :: rest)
      let (more, rest) ← readTagOctets whole fuel rest
      return (octets ++ more, rest)
    else if isTagChar whole c then do
      let (more, rest) ← readTagOctets whole fuel rest
      return (c.toUInt8 :: more, rest)
    else some ([], c :: rest)

/-- The octets before the first zero: what a tag means goes no further. -/
def untilZero (octets : List UInt8) : List UInt8 := octets.takeWhile (· != 0)

def readTagText (whole : Bool) (fuel : Nat) (cs : List Char) :
    Option (List UInt8 × List Char) := do
  let (octets, rest) ← readTagOctets whole fuel cs
  if octets.isEmpty then none else return (untilZero octets, rest)

/-- A handle at the head of a text: an exclamation mark, word characters, and a second mark if
there is one. -/
def readHandle : List Char → Option (List Char × List Char)
  | '!' :: rest =>
    let (word, rest) := spanWord rest
    match rest with
    | '!' :: rest => some ('!' :: word ++ ['!'], rest)
    | _ => some ('!' :: word, rest)
  | _ => none

/-- Whether a handle ends with a second mark. -/
def isClosedHandle (handle : List Char) : Bool :=
  2 ≤ handle.length && handle.getLast? == some '!'

/-- A tag without the check of what follows: its handle and its suffix. A lone mark is a tag of its
own with the empty handle. -/
def readTagParts (fuel : Nat) (cs : List Char) :
    Option ((List Char × List UInt8) × List Char) := do
  match cs with
  | '!' :: '<' :: rest =>
    let (octets, rest) ← readTagText true fuel rest
    match rest with
    | '>' :: rest => return (([], octets), rest)
    | _ => none
  | _ =>
    let (handle, rest) ← readHandle cs
    if isClosedHandle handle then
      let (suffix, rest) ← readTagText false fuel rest
      return ((handle, suffix), rest)
    else
      let (more, rest) ← readTagOctets false fuel rest
      let suffix := untilZero ((handle.drop 1).map Char.toUInt8 ++ more)
      if suffix.isEmpty then return (([], [0x21]), rest) else return ((['!'], suffix), rest)

/-- A tag, from its exclamation mark. A blank must follow, or a comma in a flow collection. The fuel
bounds its length. -/
def readTag (flow : Bool) (fuel : Nat) (cs : List Char) : Option (Token × List Char) := do
  let ((handle, suffix), rest) ← readTagParts fuel cs
  if atGap rest || (flow && rest.head? == some ',') then
    return (.tag (String.ofList handle) suffix, rest)
  else none

/-! ## directives -/

/-- A number of at most nine digits. -/
def readVersionNumber (cs : List Char) : Option (Nat × List Char) :=
  let (digits, rest) := Json.spanDigits cs
  if digits.isEmpty || 9 < digits.length then none else some (Json.digitsValue digits, rest)

def readVersion (cs : List Char) : Option (Token × List Char) := do
  let (major, cs) ← readVersionNumber (cs.dropWhile isBlank)
  match cs with
  | '.' :: cs =>
    let (minor, cs) ← readVersionNumber cs
    return (.version major minor, cs)
  | _ => none

/-- A tag handle with what it stands for, after the name of its directive. -/
def readTagHandle (fuel : Nat) (cs : List Char) : Option (Token × List Char) := do
  let (handle, cs) ← readHandle (cs.dropWhile isBlank)
  if !(handle == ['!'] || isClosedHandle handle) then none
  if !cs.head?.any isBlank then none
  let (expansion, cs) ← readTagText true fuel (cs.dropWhile isBlank)
  if !atGap cs then none
  return (.tagHandle (String.ofList handle) expansion, cs)

/-- A directive after its percent sign, to the end of the line. The fuel bounds its length. -/
def readDirective (fuel : Nat) (cs : List Char) : Option (Token × List Char) := do
  let (name, cs) := spanWord cs
  if name.isEmpty || !atGap cs then none
  let (token, cs) ←
    if name == "YAML".toList then readVersion cs
    else if name == "TAG".toList then readTagHandle fuel cs
    else none
  return (token, ← passLine cs)

end AccessFilter.Yaml
