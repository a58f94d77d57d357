import AccessFilter.Value.Number

/-!
# Values: what a condition compares with and a cell holds

* `Value`         null, booleans, numbers, strings, arrays and objects;
* `Fields`        the fields of an object or a row: pairs in insertion order;
* `Fields.find?`  the first field with a key is the one that counts;
* `Fields.put`    a new key goes to the end, a known key keeps its place and takes the new value.
-/

namespace AccessFilter

inductive Value where
  | null
  | bool (b : Bool)
  | number (n : Number)
  | string (s : String)
  | array (items : List Value)
  | object (fields : List (String × Value))

instance : Inhabited Value := ⟨.null⟩

/-- The fields of an object, in order. -/
abbrev Fields (α : Type) := List (String × α)

namespace Fields

variable {α : Type}

def find? (key : String) : Fields α → Option α
  | [] => none
  | (k, v) :: rest => if k = key then some v else find? key rest

/-- Set a field: a known key keeps its place, a new one goes to the end. -/
def put (key : String) (value : α) : Fields α → Fields α
  | [] => [(key, value)]
  | (k, v) :: rest => if k = key then (k, value) :: rest else (k, v) :: put key value rest

def ofList (fields : List (String × α)) : Fields α :=
  fields.foldl (fun acc f => put f.1 f.2 acc) []

def keys (fields : Fields α) : List String := fields.map (·.1)

theorem find?_put_of_ne (key other : String) (value : α) (fields : Fields α) (h : other ≠ key) :
    find? other (put key value fields) = find? other fields := by
  induction fields with
  | nil => simp [put, find?, h.symm]
  | cons f rest ih =>
    obtain ⟨k, v⟩ := f
    by_cases hk : k = key
    · subst hk
      simp [put, find?, h.symm]
    · by_cases ho : k = other
      · subst ho
        simp [put, find?, hk]
      · simp [put, find?, hk, ho, ih]

theorem mem_keys_put (key other : String) (value : α) (fields : Fields α) :
    other ∈ keys (put key value fields) ↔ other = key ∨ other ∈ keys fields := by
  induction fields with
  | nil => simp [put, keys]
  | cons f rest ih =>
    obtain ⟨k, v⟩ := f
    simp only [keys] at ih
    by_cases h : k = key
    · subst h
      simp [put, keys]
    · simp only [put, h, if_false, keys, List.map_cons, List.mem_cons, ih]
      constructor
      · rintro (h | h | h) <;> simp [h]
      · rintro (h | h | h) <;> simp [h]

theorem nodup_keys_put (key : String) (value : α) (fields : Fields α)
    (h : (keys fields).Nodup) : (keys (put key value fields)).Nodup := by
  induction fields with
  | nil => simp [put, keys]
  | cons f rest ih =>
    obtain ⟨k, v⟩ := f
    simp only [keys, List.map_cons, List.nodup_cons] at h
    by_cases hk : k = key
    · subst hk
      simpa [put, keys] using h
    · have hrest := ih h.2
      simp only [put, hk, if_false, keys, List.map_cons, List.nodup_cons]
      refine ⟨fun hmem => ?_, hrest⟩
      rcases (mem_keys_put key k value rest).1 hmem with e | e
      · exact hk e
      · exact h.1 e

end Fields

/-! ## equality of whole values -/

mutual

/-- The same value: kind by kind, objects whatever the order of their fields. Inside a container a
number equals only a number of its own kind. -/
def Value.same : Value → Value → Bool
  | .null, .null => true
  | .bool a, .bool b => a == b
  | .number a, .number b => a.same b
  | .string a, .string b => a == b
  | .array a, .array b => Value.sameItems a b
  | .object a, .object b => Value.sameFields [] a b && b.all fun f => (Fields.find? f.1 a).isSome
  | _, _ => false

def Value.sameItems : List Value → List Value → Bool
  | [], [] => true
  | a :: as, b :: bs => Value.same a b && Value.sameItems as bs
  | _, _ => false

/-- Every field of the first list, apart from the keys already seen, is found equal in the second. -/
def Value.sameFields (seen : List String) : List (String × Value) → List (String × Value) → Bool
  | [], _ => true
  | (k, v) :: rest, other =>
    (seen.contains k ||
      match Fields.find? k other with
      | some w => Value.same v w
      | none => false) && Value.sameFields (k :: seen) rest other

end

end AccessFilter
