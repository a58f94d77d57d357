import AccessFilter.Value.Number

/-!
# Reading a JSON number

A number without fraction and exponent that fits 64 bits is an integer, anything else a double.
A double is read in two roundings: its first digits, as many as fit into 64 bits, are rounded to 53
bits, and the result is multiplied or divided once by the power of ten rounded to 53 bits. So the
double read is near the number written, but not always the nearest.

* `Json.Failure`         why a text could not be read;
* `Json.Significand`     the digits kept and the power of ten they are counted in;
* `Json.scaleByTen?`     a significand times a power of ten;
* `Json.readNumber`      a number at the head of a text, after its sign.
-/

namespace AccessFilter.Json

/-- What the reader found where a value of another shape was expected. -/
inductive Found where
  | null
  | bool (b : Bool)
  | integer (i : Int)
  | float (x : Binary64)
  | string (s : String)
  | sequence
  | map

/-- A value that is well formed and of the wrong shape. -/
inductive ShapeError where
  | invalidType (found : Found) (expected : String)
  | invalidLength (length : Nat) (expected : String)
  | missingField (name : String)
  | unknownField (name : String) (expected : List String)
  | duplicateField (name : String)
  | oneOrManyStrings

/-- Why a text could not be read: it ends too early, it is no JSON, or it holds something else. -/
inductive Failure where
  | endOfText
  | malformed
  | shape (cause : ShapeError)

/-! ## digits -/

def digitValue (c : Char) : Nat := c.toNat - '0'.toNat

def digitsValue (ds : List Char) : Nat := ds.foldl (fun n c => 10 * n + digitValue c) 0

/-- The digits at the head of a text, and the rest. -/
def spanDigits (cs : List Char) : List Char × List Char :=
  (cs.takeWhile Char.isDigit, cs.dropWhile Char.isDigit)

theorem spanDigits_append (cs : List Char) : (spanDigits cs).1 ++ (spanDigits cs).2 = cs :=
  List.takeWhile_append_dropWhile

/-- Digits kept so far, counted in a power of ten; `full` once a digit did not fit into 64 bits. -/
structure Significand where
  value : Nat
  exponent : Int
  full : Bool

namespace Significand

def empty : Significand := ⟨0, 0, false⟩

/-- One more digit, if it fits into 64 bits and none was dropped before. -/
def push? (s : Significand) (c : Char) : Option Nat :=
  let n := 10 * s.value + digitValue c
  if s.full || twoPow 64 ≤ n then none else some n

/-- A digit before the point: a dropped one counts as a factor of ten. -/
def integerDigit (s : Significand) (c : Char) : Significand :=
  match s.push? c with
  | some n => { s with value := n }
  | none => { s with exponent := s.exponent + 1, full := true }

/-- A digit after the point: a dropped one does not count. -/
def fractionDigit (s : Significand) (c : Char) : Significand :=
  match s.push? c with
  | some n => { s with value := n, exponent := s.exponent - 1 }
  | none => { s with full := true }

end Significand

/-! ## the value of a double -/

/-- A power of ten rounded to 53 bits. -/
def roundedTenPow (k : Nat) : Nat := significant53 (tenPow k)

/-- The quotient of the magnitude of a double and a whole number. -/
def divide (x : Binary64) (n : Nat) : Binary64 :=
  (Binary64.ofUnits? false x.units n).getD (Binary64.zero false)

/-- A double divided by `10^k`, `10^308` at a time. -/
def divideByTen (x : Binary64) (k : Nat) : Binary64 :=
  if k ≤ 308 then divide x (roundedTenPow k)
  else if x.mantissa = 0 then x
  else divideByTen (divide x (roundedTenPow 308)) (k - 308)
termination_by k

/-- `n · 10^e`, or `none` when it is out of range. -/
def scaleByTen? (n : Nat) (e : Int) : Option Binary64 :=
  if 0 ≤ e then
    if n = 0 then some (Binary64.zero false)
    else if e ≤ 308 then Binary64.ofRatio? false (significant53 n * roundedTenPow e.toNat) 1
    else none
  else (Binary64.ofRatio? false (significant53 n) 1).map (divideByTen · (-e).toNat)

/-- The largest exponent that is looked at. -/
def maxExponent : Nat := 2147483647

/-- A double from its parts. An exponent beyond `maxExponent` leaves only zero and out of range. -/
def assemble? (negative : Bool) (s : Significand) (exponent : Option (Bool × Nat)) :
    Option Binary64 :=
  let magnitude :=
    match exponent with
    | none => scaleByTen? s.value s.exponent
    | some (down, e) =>
      if maxExponent < e then
        if s.value = 0 || down then some (Binary64.zero false) else none
      else scaleByTen? s.value (if down then s.exponent - e else s.exponent + e)
  magnitude.map fun x => if negative then x.negate else x

/-! ## reading -/

/-- The exponent after its mark: whether it counts down, its digits, and the rest. -/
def readExponent (cs : List Char) : Except Failure ((Bool × Nat) × List Char) :=
  let (down, cs) := match cs with
    | '+' :: rest => (false, rest)
    | '-' :: rest => (true, rest)
    | _ => (false, cs)
  match spanDigits cs with
  | ([], []) => .error .endOfText
  | ([], _) => .error .malformed
  | (ds, rest) => .ok ((down, digitsValue ds), rest)

/-- The number a whole significand stands for: an integer while it fits, otherwise a double. -/
def wholeNumber? (negative : Bool) (s : Significand) : Option Number :=
  let double := (assemble? negative s none).map Number.float
  if s.full then double
  else if negative then
    if s.value = 0 then double
    else if h : IntegerRange (-(s.value : Int)) then some (.integer _ h) else double
  else if h : IntegerRange (s.value : Int) then some (.integer _ h) else double

def floatOrFail (x : Option Binary64) (rest : List Char) : Except Failure (Number × List Char) :=
  match x with
  | some x => .ok (.float x, rest)
  | none => .error .malformed

/-- What follows the digits of a double: an exponent or nothing. -/
def readTail (negative : Bool) (s : Significand) (cs : List Char) :
    Except Failure (Number × List Char) :=
  match cs with
  | [] => floatOrFail (assemble? negative s none) []
  | c :: rest =>
    if c = 'e' ∨ c = 'E' then
      match readExponent rest with
      | .ok (e, rest) => floatOrFail (assemble? negative s (some e)) rest
      | .error f => .error f
    else floatOrFail (assemble? negative s none) (c :: rest)

/-- A number at the head of a text, after its sign. -/
def readNumber (negative : Bool) (cs : List Char) : Except Failure (Number × List Char) :=
  match spanDigits cs with
  | ([], []) => .error .endOfText
  | ([], _) => .error .malformed
  | ('0' :: _ :: _, _) => .error .malformed
  | (ds, rest) =>
    let s := ds.foldl Significand.integerDigit .empty
    match rest with
    | '.' :: rest =>
      match spanDigits rest with
      | ([], []) => .error .endOfText
      | ([], _) => .error .malformed
      | (fs, rest) => readTail negative (fs.foldl Significand.fractionDigit { s with full := false }) rest
    | 'e' :: _ => readTail negative s rest
    | 'E' :: _ => readTail negative s rest
    | _ =>
      match wholeNumber? negative s with
      | some n => .ok (n, rest)
      | none => .error .malformed

end AccessFilter.Json
