import AccessFilter.Json.Number
import AccessFilter.Value.Basic
import AccessFilter.Yaml.Tag

/-!
# What a scalar means

A plain scalar without a tag is null, a boolean, a number or a string by its spelling. Whole numbers
are written in base ten, or in another base after `0x`, `0o` or `0b`; digits behind a leading zero
are no number. A double is the nearest to what is written.

* `Yaml.isNullWord`, `Yaml.boolWord?`   the spellings of null and of the booleans;
* `Yaml.wholeNumber?`, `Yaml.double?`   whole numbers of any size, and doubles;
* `Value.ofPlain`                       the value of a plain scalar;
* `Value.ofTagged`                      the value of a scalar with a tag.
-/

namespace AccessFilter.Yaml

def isNullWord (s : String) : Bool := s ∈ ["null", "Null", "NULL", "~"]

def boolWord? (s : String) : Option Bool :=
  if s ∈ ["true", "True", "TRUE"] then some true
  else if s ∈ ["false", "False", "FALSE"] then some false
  else none

/-! ## whole numbers -/

def unsigned : List Char → List Char
  | '+' :: cs => cs
  | '-' :: cs => cs
  | cs => cs

/-- Whether a scalar is a zero followed by further digits only, after a sign or none. -/
def isPadded (cs : List Char) : Bool :=
  match unsigned cs with
  | '0' :: d :: ds => (d :: ds).all Char.isDigit
  | _ => false

def digitIn? (base : Nat) (c : Char) : Option Nat :=
  if c.isDigit && c.toNat - '0'.toNat < base then some (c.toNat - '0'.toNat)
  else if base ≤ 10 then none
  else if 'a' ≤ c ∧ c ≤ 'f' then some (c.toNat - 'a'.toNat + 10)
  else if 'A' ≤ c ∧ c ≤ 'F' then some (c.toNat - 'A'.toNat + 10)
  else none

/-- The number written by at least one digit in a base. -/
def digitsIn? (base : Nat) : List Char → Option Nat
  | [] => none
  | c :: cs => (c :: cs).foldlM (fun n d => (digitIn? base d).map (base * n + ·)) 0

/-- A whole number without sign. -/
def magnitude? : List Char → Option Nat
  | '0' :: 'x' :: ds => digitsIn? 16 ds
  | '0' :: 'o' :: ds => digitsIn? 8 ds
  | '0' :: 'b' :: ds => digitsIn? 2 ds
  | ds => if isPadded ds then none else digitsIn? 10 ds

/-- A whole number of any size. -/
def wholeNumber? (cs : List Char) : Option Int :=
  match cs with
  | '-' :: ds => (magnitude? ds).map fun n => -(n : Int)
  | '+' :: ds => (magnitude? ds).map fun n => (n : Int)
  | ds => (magnitude? ds).map fun n => (n : Int)

/-- Whether a whole number has at most 128 bits. -/
def isWide (i : Int) : Bool := -(twoPow 127 : Int) ≤ i && i < (twoPow 128 : Int)

/-! ## doubles -/

/-- Whether a scalar is a spelling of an infinity or of the number that is none. -/
def isNonFinite (s : String) : Bool :=
  s ∈ [".inf", ".Inf", ".INF", "+.inf", "+.Inf", "+.INF", "-.inf", "-.Inf", "-.INF", ".nan", ".NaN",
    ".NAN"]

/-- The exponent at the end of a double; none counts as zero. -/
def exponent? : List Char → Option Int
  | [] => some 0
  | c :: cs =>
    if c = 'e' ∨ c = 'E' then
      match cs with
      | '-' :: ds => (digitsIn? 10 ds).map fun n => -(n : Int)
      | '+' :: ds => (digitsIn? 10 ds).map fun n => (n : Int)
      | ds => (digitsIn? 10 ds).map fun n => (n : Int)
    else none

/-- The double nearest to the number with some digits, times `10^e`, if that is in range. A number
far out of range is told by its count of digits. -/
def nearest? (negative : Bool) (digits : List Char) (e : Int) : Option Binary64 :=
  let digits := digits.dropWhile (· = '0')
  if digits.isEmpty ∨ digits.length + e < -400 then some (Binary64.zero negative)
  else if 400 < digits.length + e then none
  else
    let n := Json.digitsValue digits
    if 0 ≤ e then Binary64.ofRatio? negative (n * tenPow e.toNat) 1
    else Binary64.ofRatio? negative n (tenPow (-e).toNat)

/-- A double without sign: digits with a point anywhere among them or none, and an exponent. -/
def doubleMagnitude? (negative : Bool) (cs : List Char) : Option Binary64 := do
  let (whole, cs) := Json.spanDigits cs
  let (fraction, cs) := match cs with
    | '.' :: cs => Json.spanDigits cs
    | cs => ([], cs)
  let e ← exponent? cs
  if whole.isEmpty && fraction.isEmpty then none
  nearest? negative (whole ++ fraction) (e - fraction.length)

def double? : List Char → Option Binary64
  | '+' :: cs => doubleMagnitude? false cs
  | '-' :: cs => doubleMagnitude? true cs
  | cs => doubleMagnitude? false cs

/-- A double as a value; what is not finite reads as null. -/
def doubleValue? (s : String) : Option Value :=
  if isNonFinite s then some .null else (double? s.toList).map fun x => .number (.float x)

end AccessFilter.Yaml

namespace AccessFilter

open Yaml

/-- The value of a plain scalar. A whole number of at most 128 bits must fit into 64. -/
def Value.ofPlain (s : String) : Option Value :=
  if s.isEmpty || isNullWord s then some .null
  else
    match boolWord? s with
    | some b => some (.bool b)
    | none =>
      let float : Option Value :=
        if isPadded s.toList then some (.string s) else some ((doubleValue? s).getD (.string s))
      match wholeNumber? s.toList with
      | some i =>
        match Number.ofInt? i with
        | some n => some (.number n)
        | none => if isWide i then none else float
      | none => float

/-- The value of a scalar with a tag. A tag of the format asks for its kind; there is no value with
a meaning of the document's own. Any other tag makes a string, but one that cannot be read leaves a
plain scalar its meaning. -/
def Value.ofTagged (tag : Tag) (isPlain : Bool) (s : String) : Option Value :=
  match tag with
  | .null => if isNullWord s then some .null else none
  | .bool => (boolWord? s).map .bool
  | .int => ((wholeNumber? s.toList).bind Number.ofInt?).map .number
  | .float => doubleValue? s
  | .own => none
  | .unreadable => if isPlain then Value.ofPlain s else some (.string s)
  | .other => some (.string s)

end AccessFilter
