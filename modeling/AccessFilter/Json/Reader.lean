import AccessFilter.Json.Number
import AccessFilter.Value.Basic

/-!
# Reading JSON text

Every reader takes the characters that are left and gives a value with the rest, or the first
failure in reading order.

* `Json.readString`   the rest of a string after its opening quote;
* `Json.readValue`    a value, containers nested at most as deep as a budget allows;
* `Json.skipValue`    passes over a value of any depth without looking at numbers and escapes closely;
* `Json.parse`        a whole text.
-/

namespace AccessFilter.Json

def maxDepth : Nat := 127

def isBlank (c : Char) : Bool := c = ' ' || c = '\n' || c = '\t' || c = '\r'

def skipBlanks (cs : List Char) : List Char := cs.dropWhile isBlank

/-- What is left after a given word. -/
def expect : List Char → List Char → Except Failure (List Char)
  | [], rest => .ok rest
  | _ :: _, [] => .error .endOfText
  | c :: cs, d :: rest => if c = d then expect cs rest else .error .malformed

/-! ## strings -/

def hexValue? (c : Char) : Option Nat :=
  if c.isDigit then some (c.toNat - '0'.toNat)
  else if 'a' ≤ c ∧ c ≤ 'f' then some (c.toNat - 'a'.toNat + 10)
  else if 'A' ≤ c ∧ c ≤ 'F' then some (c.toNat - 'A'.toNat + 10)
  else none

def hexValue4? (a b c d : Char) : Option Nat := do
  return ((16 * (← hexValue? a) + (← hexValue? b)) * 16 + (← hexValue? c)) * 16 + (← hexValue? d)

/-- Whether a text has fewer than four octets in UTF-8. -/
def isShort (cs : List Char) : Bool := (cs.foldl (fun n c => n + c.utf8Size) 0) < 4

/-- The failure at an escape that should be four hexadecimal digits and is not. -/
def hexFailure (cs : List Char) : Failure := if isShort cs then .endOfText else .malformed

def simpleEscape? (c : Char) : Option Char :=
  match c with
  | '"' => some '"'
  | '\\' => some '\\'
  | '/' => some '/'
  | 'b' => some '\x08'
  | 'f' => some '\x0c'
  | 'n' => some '\n'
  | 'r' => some '\r'
  | 't' => some '\t'
  | _ => none

/-- Whether a code unit opens a pair. -/
def isLeading (n : Nat) : Bool := 0xD800 ≤ n && n ≤ 0xDBFF

def isTrailing (n : Nat) : Bool := 0xDC00 ≤ n && n ≤ 0xDFFF

/-- The failure where the second half of a pair should stand. -/
def pairFailure : List Char → Failure
  | [] => .endOfText
  | ['\\'] => .endOfText
  | '\\' :: 'u' :: rest => hexFailure rest
  | _ => .malformed

/-- A character before what a string reader gives. -/
def consResult (c : Char) :
    Except Failure (List Char × List Char) → Except Failure (List Char × List Char)
  | .ok (cs, rest) => .ok (c :: cs, rest)
  | .error f => .error f

/-- The characters of a string after its opening quote, and the rest after the closing one. Raw
controls and halves of pairs are refused. -/
def readString : List Char → Except Failure (List Char × List Char)
  | [] => .error .endOfText
  | '"' :: rest => .ok ([], rest)
  | ['\\'] => .error .endOfText
  | '\\' :: 'u' :: a :: b :: c :: d :: rest =>
    match hexValue4? a b c d with
    | none => .error .malformed
    | some n =>
      if isTrailing n then .error .malformed
      else if isLeading n then
        match rest with
        | '\\' :: 'u' :: e :: f :: g :: h :: rest' =>
          match hexValue4? e f g h with
          | none => .error .malformed
          | some m =>
            if isTrailing m then
              consResult (Char.ofNat ((n - 0xD800) * 0x400 + (m - 0xDC00) + 0x10000))
                (readString rest')
            else .error .malformed
        | _ => .error (pairFailure rest)
      else consResult (Char.ofNat n) (readString rest)
  | '\\' :: 'u' :: rest => .error (hexFailure rest)
  | '\\' :: c :: rest =>
    match simpleEscape? c with
    | some d => consResult d (readString rest)
    | none => .error .malformed
  | c :: rest => if c.toNat < 0x20 then .error .malformed else consResult c (readString rest)

/-- What is left after a string that nobody looks at: escapes are checked in form only. -/
def skipString : List Char → Except Failure (List Char)
  | [] => .error .endOfText
  | '"' :: rest => .ok rest
  | ['\\'] => .error .endOfText
  | '\\' :: 'u' :: a :: b :: c :: d :: rest =>
    match hexValue4? a b c d with
    | none => .error .malformed
    | some _ => skipString rest
  | '\\' :: 'u' :: rest => .error (hexFailure rest)
  | '\\' :: c :: rest => if (simpleEscape? c).isSome then skipString rest else .error .malformed
  | c :: rest => if c.toNat < 0x20 then .error .malformed else skipString rest

/-! ## containers -/

/-- A reader of one thing at the head of a text. -/
abbrev Reader (α : Type) := List Char → Except Failure (α × List Char)

/-- Whether another item follows in a list: `first` before the first one. Gives the text at the
item, or after the closing bracket. -/
def nextItem (first : Bool) (cs : List Char) : Except Failure (Bool × List Char) :=
  match skipBlanks cs with
  | [] => .error .endOfText
  | ']' :: rest => .ok (false, rest)
  | ',' :: rest =>
    if first then .ok (true, ',' :: rest)
    else
      match skipBlanks rest with
      | [] => .error .endOfText
      | ']' :: _ => .error .malformed
      | rest => .ok (true, rest)
  | rest => if first then .ok (true, rest) else .error .malformed

/-- Whether another key follows in an object. Gives the text after the opening quote of the key, or
after the closing brace. -/
def nextKey (first : Bool) (cs : List Char) : Except Failure (Bool × List Char) :=
  match skipBlanks cs with
  | [] => .error .endOfText
  | '\x7d' :: rest => .ok (false, rest)
  | ',' :: rest =>
    if first then .error .malformed
    else
      match skipBlanks rest with
      | [] => .error .endOfText
      | '"' :: rest => .ok (true, rest)
      | _ => .error .malformed
  | '"' :: rest => if first then .ok (true, rest) else .error .malformed
  | _ => .error .malformed

def readColon (cs : List Char) : Except Failure (List Char) :=
  match skipBlanks cs with
  | [] => .error .endOfText
  | ':' :: rest => .ok rest
  | _ => .error .malformed

/-- The items of a list after its opening bracket; the fuel bounds their number. -/
def readItems {α : Type} (item : Reader α) : Nat → Bool → Reader (List α)
  | 0, _, _ => .error .malformed
  | fuel + 1, first, cs => do
    let (more, cs) ← nextItem first cs
    if more then
      let (v, cs) ← item cs
      let (vs, cs) ← readItems item fuel false cs
      return (v :: vs, cs)
    else return ([], cs)

/-- The fields of an object after its opening brace; the fuel bounds their number. -/
def readFields {α : Type} (item : Reader α) : Nat → Bool → Reader (List (String × α))
  | 0, _, _ => .error .malformed
  | fuel + 1, first, cs => do
    let (more, cs) ← nextKey first cs
    if more then
      let (k, cs) ← readString cs
      let cs ← readColon cs
      let (v, cs) ← item cs
      let (vs, cs) ← readFields item fuel false cs
      return ((String.ofList k, v) :: vs, cs)
    else return ([], cs)

/-- A value whose containers are nested at most `depth` deep. The fuel bounds the number of things in
each container. -/
def readValue (fuel depth : Nat) : Reader Value := fun cs =>
  match skipBlanks cs with
  | [] => .error .endOfText
  | 'n' :: rest => return (.null, ← expect "ull".toList rest)
  | 't' :: rest => return (.bool true, ← expect "rue".toList rest)
  | 'f' :: rest => return (.bool false, ← expect "alse".toList rest)
  | '"' :: rest => do
    let (s, rest) ← readString rest
    return (.string (String.ofList s), rest)
  | '-' :: rest => do
    let (n, rest) ← readNumber true rest
    return (.number n, rest)
  | '[' :: rest =>
    match depth with
    | 0 => .error .malformed
    | d + 1 => do
      let (vs, rest) ← readItems (readValue fuel d) fuel true rest
      return (.array vs, rest)
  | '\x7b' :: rest =>
    match depth with
    | 0 => .error .malformed
    | d + 1 => do
      let (fs, rest) ← readFields (readValue fuel d) fuel true rest
      return (.object (Fields.ofList fs), rest)
  | c :: rest =>
    if c.isDigit then do
      let (n, rest) ← readNumber false (c :: rest)
      return (.number n, rest)
    else .error .malformed

/-! ## passing over a value -/

/-- What is left after at least one digit. -/
def skipDigits (cs : List Char) : Except Failure (List Char) :=
  let (digits, rest) := spanDigits cs
  if digits.isEmpty then .error .malformed else .ok rest

/-- What is left after the fraction of a number, if there is one. -/
def skipFraction : List Char → Except Failure (List Char)
  | '.' :: rest => skipDigits rest
  | cs => .ok cs

/-- What is left after the sign of an exponent, if there is one. -/
def skipSign : List Char → List Char
  | '+' :: rest => rest
  | '-' :: rest => rest
  | cs => cs

/-- What is left after the exponent of a number, if there is one. -/
def skipExponent : List Char → Except Failure (List Char)
  | 'e' :: rest => skipDigits (skipSign rest)
  | 'E' :: rest => skipDigits (skipSign rest)
  | cs => .ok cs

/-- What is left after a number that nobody looks at. One that the end of the text cuts short is
malformed. -/
def skipNumber (cs : List Char) : Except Failure (List Char) := do
  match cs with
  | '0' :: d :: _ => if d.isDigit then throw .malformed
  | _ => pure ()
  skipExponent (← skipFraction (← skipDigits cs))

mutual

/-- What is left after a value of any depth that nobody looks at. `owed` lists the closing marks of
the containers around it, innermost first, `true` for a brace; the fuel bounds the number of
steps. -/
def skipNested : Nat → List Bool → List Char → Except Failure (List Char)
  | 0, _, _ => .error .malformed
  | fuel + 1, owed, cs =>
    match skipBlanks cs with
    | [] => .error .endOfText
    | 'n' :: rest => do skipOn fuel owed false (← expect "ull".toList rest)
    | 't' :: rest => do skipOn fuel owed false (← expect "rue".toList rest)
    | 'f' :: rest => do skipOn fuel owed false (← expect "alse".toList rest)
    | '"' :: rest => do skipOn fuel owed false (← skipString rest)
    | '-' :: rest => do skipOn fuel owed false (← skipNumber rest)
    | '[' :: rest => skipOn fuel (false :: owed) true rest
    | '\x7b' :: rest => skipOn fuel (true :: owed) true rest
    | c :: rest =>
      if c.isDigit then do skipOn fuel owed false (← skipNumber (c :: rest))
      else .error .malformed

/-- After a value, or at the start of a container: the innermost container goes on or closes. -/
def skipOn : Nat → List Bool → Bool → List Char → Except Failure (List Char)
  | 0, _, _, _ => .error .malformed
  | _ + 1, [], _, cs => .ok cs
  | fuel + 1, false :: outer, first, cs => do
    let (more, rest) ← nextItem first cs
    if more then skipNested fuel (false :: outer) rest else skipOn fuel outer false rest
  | fuel + 1, true :: outer, first, cs => do
    let (more, rest) ← nextKey first cs
    if more then
      let rest ← skipString rest
      let rest ← readColon rest
      skipNested fuel (true :: outer) rest
    else skipOn fuel outer false rest

end

/-- What is left after a value that nobody looks at. The fuel bounds its length. -/
def skipValue (fuel : Nat) (cs : List Char) : Except Failure (List Char) :=
  skipNested (2 * fuel + 1) [] cs

/-! ## whole texts -/

/-- Refuse anything but blanks after a value. -/
def finish {α : Type} (r : Except Failure (α × List Char)) : Except Failure α := do
  let (v, rest) ← r
  if (skipBlanks rest).isEmpty then return v else .error .malformed

def parse (text : String) : Except Failure Value :=
  let cs := text.toList
  finish (readValue (cs.length + 1) maxDepth cs)

end AccessFilter.Json
