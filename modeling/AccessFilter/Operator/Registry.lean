import AccessFilter.Operator.Basic
import AccessFilter.Value.Basic
import AccessFilter.Text.Inspect

/-!
# The operators known to a compilation, by symbol

* `Registry`             operators by symbol, in increasing order of the symbols, none twice;
* `Registry.resolve?`    the operator of a symbol;
* `Registry.register`    a new or replaced operator; the symbol must have the form `$name`;
* `Registry.overlay`     all operators of another registry over those of this one;
* `Registry.standard`, `Registry.withComparisons`  the built-in sets.
-/

namespace AccessFilter

/-- Operators by symbol. -/
structure Registry where
  entries : List (String × Operator)

/-- A symbol that is not of the form `$name`. -/
structure InvalidSymbol where
  symbol : String

def InvalidSymbol.message (e : InvalidSymbol) : String :=
  "Operator symbol '" ++ e.symbol ++ "' must start with '$'"

namespace Registry

def empty : Registry := ⟨[]⟩

/-- An entry at its place in increasing order, replacing one with the same symbol. -/
def insertEntry (symbol : String) (op : Operator) : List (String × Operator) → List (String × Operator)
  | [] => [(symbol, op)]
  | (s, o) :: rest =>
    if symbol < s then (symbol, op) :: (s, o) :: rest
    else if symbol = s then (symbol, op) :: rest
    else (s, o) :: insertEntry symbol op rest

/-- The registry with one more operator, whatever its symbol. -/
def insert (r : Registry) (symbol : String) (op : Operator) : Registry :=
  ⟨insertEntry symbol op r.entries⟩

/-- The registry with an operator under a symbol of the form `$name`. -/
def register (r : Registry) (symbol : String) (op : Operator) : Except InvalidSymbol Registry :=
  if isOperatorSymbol symbol then .ok (r.insert symbol op) else .error ⟨symbol⟩

/-- The built-in operators `$eq` and `$in`. -/
def standard : Registry := (empty.insert "$eq" .equals).insert "$in" .oneOf

/-- The built-in comparisons over the operators of a registry. -/
def withComparisons (r : Registry) : Registry :=
  (((((r.insert "$ne" (.comparing .ne)).insert "$gt" (.comparing .gt)).insert "$gte"
    (.comparing .ge)).insert "$lt" (.comparing .lt)).insert "$lte" (.comparing .le)).insert "$nin"
    .notOneOf

/-- All operators of `other` over those of `r`. -/
def overlay (r other : Registry) : Registry :=
  other.entries.foldl (fun acc e => acc.insert e.1 e.2) r

def resolve? (r : Registry) (symbol : String) : Option Operator := Fields.find? symbol r.entries

def contains (r : Registry) (symbol : String) : Bool := (r.resolve? symbol).isSome

/-- The known symbols. They are in increasing order because the entries are. -/
def symbols (r : Registry) : List String := r.entries.map (·.1)

def size (r : Registry) : Nat := r.entries.length

def isEmpty (r : Registry) : Bool := r.entries.isEmpty

def inspect (r : Registry) : String :=
  "OperatorRegistry \x7b symbols: [" ++ ", ".intercalate (r.symbols.map Text.inspect) ++ "] \x7d"

theorem find?_insertEntry_self (symbol : String) (op : Operator) (es : List (String × Operator)) :
    Fields.find? symbol (insertEntry symbol op es) = some op := by
  induction es with
  | nil => simp [insertEntry, Fields.find?]
  | cons e rest ih =>
    obtain ⟨s, o⟩ := e
    unfold insertEntry
    split
    · simp [Fields.find?]
    · split
      · simp [Fields.find?]
      · next hne =>
        have hs : s ≠ symbol := fun h => hne h.symm
        simp [Fields.find?, hs, ih]

theorem resolve?_insert_self (r : Registry) (symbol : String) (op : Operator) :
    (r.insert symbol op).resolve? symbol = some op :=
  find?_insertEntry_self symbol op r.entries

theorem find?_insertEntry_of_ne (symbol other : String) (op : Operator) (h : other ≠ symbol)
    (es : List (String × Operator)) :
    Fields.find? other (insertEntry symbol op es) = Fields.find? other es := by
  induction es with
  | nil => simp [insertEntry, Fields.find?, h.symm]
  | cons e rest ih =>
    obtain ⟨s, o⟩ := e
    unfold insertEntry
    split
    · simp [Fields.find?, h.symm]
    · split
      · next heq => subst heq; simp [Fields.find?, h.symm]
      · by_cases hs : s = other <;> simp [Fields.find?, hs, ih]

theorem resolve?_insert_of_ne (r : Registry) (symbol other : String) (op : Operator)
    (h : other ≠ symbol) : (r.insert symbol op).resolve? other = r.resolve? other :=
  find?_insertEntry_of_ne symbol other op h r.entries

end Registry

end AccessFilter
