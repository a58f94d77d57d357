import AccessFilter.Proofs.Json.Number
import AccessFilter.Proofs.Json.Text
import AccessFilter.Proofs.Traversal
import AccessFilter.Proofs.Yaml.Decode

/-!
# Values written as JSON text and read again

A value can be written and read again when it is not nested too deep, its objects hold no key twice and
each double in it is read back from its digits. The first two hold of every value that was read.

* `Binary64.ReadsBack`      a double that is read back from its digits;
* `Value.doubles`           the doubles in a value;
* `Json.readValue_json`     the text of a value is read as the value;
* `Json.nested_of_readValue`   only values that are not nested too deep and hold no key twice are read.
-/

namespace AccessFilter

/-- What is written for a double is read as the double. -/
def Binary64.ReadsBack (x : Binary64) : Prop :=
  Json.parse (Value.number (.float x)).json = .ok (.number (.float x))

def Json.number? : Except Json.Failure Value → Option Number
  | .ok (.number n) => some n
  | _ => none

theorem Json.number?_eq_some_iff (read : Except Json.Failure Value) (n : Number) :
    Json.number? read = some n ↔ read = .ok (.number n) := by
  unfold Json.number?
  split
  · simp
  · next h =>
    refine ⟨nofun, fun hread => absurd hread (h n)⟩

instance (x : Binary64) : Decidable x.ReadsBack :=
  decidable_of_iff (Json.number? _ = some (.float x)) (Json.number?_eq_some_iff _ _)

mutual

/-- The doubles in a value. -/
def Value.doubles : Value → List Binary64
  | .number (.float x) => [x]
  | .array vs => Value.doublesIn vs
  | .object fs => Value.doublesOf fs
  | _ => []

def Value.doublesIn : List Value → List Binary64
  | [] => []
  | v :: vs => v.doubles ++ Value.doublesIn vs

def Value.doublesOf : List (String × Value) → List Binary64
  | [] => []
  | (_, v) :: fs => v.doubles ++ Value.doublesOf fs

end

theorem Value.mem_doubles_array {x : Binary64} {v : Value} {vs : List Value} (hv : v ∈ vs)
    (hx : x ∈ v.doubles) : x ∈ (Value.array vs).doubles := by
  rw [Value.doubles]
  induction vs with
  | nil => cases hv
  | cons w vs ih =>
    rw [Value.doublesIn, List.mem_append]
    rcases List.mem_cons.mp hv with rfl | hv
    · exact .inl hx
    · exact .inr (ih hv)

theorem Value.mem_doubles_object {x : Binary64} {f : String × Value} {fs : List (String × Value)}
    (hf : f ∈ fs) (hx : x ∈ f.2.doubles) : x ∈ (Value.object fs).doubles := by
  rw [Value.doubles]
  induction fs with
  | nil => cases hf
  | cons g fs ih =>
    rw [Value.doublesOf, List.mem_append]
    rcases List.mem_cons.mp hf with rfl | hf
    · exact .inl hx
    · exact .inr (ih hf)

namespace Json

/-! ## what is written -/

theorem skipBlanks_cons {c : Char} (h : isBlank c = false) (cs : List Char) :
    skipBlanks (c :: cs) = c :: cs := by
  rw [skipBlanks, List.dropWhile_cons_of_neg (by rw [h]; exact Bool.false_ne_true)]

theorem not_mark_of_digit {c : Char} (h : c.isDigit = true) :
    isBlank c = false ∧ c ≠ ']' ∧ c ≠ ',' := by
  have hne : ∀ d : Char, d.isDigit = false → c ≠ d := by
    rintro d hd rfl
    cases h.symm.trans hd
  refine ⟨?_, hne ']' rfl, hne ',' rfl⟩
  rw [isBlank, decide_eq_false (hne ' ' rfl), decide_eq_false (hne '\n' rfl),
    decide_eq_false (hne '\t' rfl), decide_eq_false (hne '\r' rfl)]
  rfl

theorem exists_chars (x : Binary64) : ∃ c cs, x.chars style = c :: cs ∧
    (c = '-' ∨ c.isDigit = true) := by
  obtain ⟨c, cs, hcs, hc⟩ := x.shortest.exists_chars style
  rw [Binary64.chars, hcs]
  split
  · exact ⟨'-', _, rfl, .inl rfl⟩
  · exact ⟨c, cs, rfl, .inr hc⟩

theorem exists_intChars (i : Int) : ∃ c cs, intChars i = c :: cs ∧
    (c = '-' ∨ c.isDigit = true) := by
  obtain ⟨c, cs, hcs, hc⟩ := exists_toDigits i.natAbs
  rw [intChars, hcs]
  split
  · exact ⟨'-', _, rfl, .inl rfl⟩
  · exact ⟨c, cs, rfl, .inr (hc c List.mem_cons_self)⟩

/-- The text of a value starts with neither a blank nor a mark between values. -/
theorem exists_jsonChars (v : Value) : ∃ c cs, v.jsonChars = c :: cs ∧
    isBlank c = false ∧ c ≠ ']' ∧ c ≠ ',' := by
  have hnumber : ∀ c : Char, c = '-' ∨ c.isDigit = true → isBlank c = false ∧ c ≠ ']' ∧ c ≠ ',' := by
    rintro c (rfl | h)
    · decide
    · exact not_mark_of_digit h
  cases v with
  | null => exact ⟨'n', _, rfl, by decide⟩
  | bool b => cases b <;> exact ⟨_, _, rfl, by decide⟩
  | number n =>
    cases n with
    | integer i h =>
      obtain ⟨c, cs, hcs, hc⟩ := exists_intChars i
      exact ⟨c, cs, hcs, hnumber c hc⟩
    | float x =>
      obtain ⟨c, cs, hcs, hc⟩ := exists_chars x
      exact ⟨c, cs, hcs, hnumber c hc⟩
  | string s => exact ⟨'"', _, rfl, by decide⟩
  | array vs => cases vs <;> exact ⟨'[', _, rfl, by decide⟩
  | object fs => cases fs <;> exact ⟨'\x7b', _, rfl, by decide⟩

theorem isBlank_of_mem_chars {x : Binary64} {c : Char} (h : c ∈ x.chars style) :
    isBlank c = false := by
  rcases x.mem_chars style h with hd | rfl | rfl | rfl | hmark
  · exact (not_mark_of_digit hd).1
  · rfl
  · rfl
  · rfl
  · rcases List.mem_cons.mp (show c ∈ ['e', '+'] from hmark) with rfl | hmark
    · rfl
    · rw [List.mem_singleton.mp hmark]
      rfl

/-! ## numbers -/

theorem readValue_minus (fuel depth : Nat) (cs : List Char) : readValue fuel depth ('-' :: cs)
    = (readNumber true cs).map fun p => (.number p.1, p.2) := by
  rw [readValue.eq_def, skipBlanks_cons rfl]
  show (readNumber true cs >>= fun p => pure (Value.number p.1, p.2)) = _
  cases readNumber true cs <;> rfl

theorem readValue_digit (fuel depth : Nat) {c : Char} (h : c.isDigit = true) (cs : List Char) :
    readValue fuel depth (c :: cs)
      = (readNumber false (c :: cs)).map fun p => (.number p.1, p.2) := by
  rw [readValue.eq_def, skipBlanks_cons (not_mark_of_digit h).1]
  split
  case h_1 heq => cases heq
  case h_9 heq =>
    cases heq
    rw [if_pos h]
    cases readNumber false (c :: cs) <;> rfl
  -- any other first character is no digit
  all_goals
    next heq =>
    cases heq
    cases h

/-- A number that is read is read in front of anything that ends a number. -/
theorem readValue_append {fuel depth : Nat} {c : Char} (h : c = '-' ∨ c.isDigit = true)
    {cs r : List Char} {v : Value} (hread : readValue fuel depth (c :: cs) = .ok (v, r)) :
    r <:+ c :: cs ∧ ∀ fuel depth rest, EndsNumber rest →
      readValue fuel depth (c :: cs ++ rest) = .ok (v, r ++ rest) := by
  rcases h with rfl | hdigit
  · rw [readValue_minus] at hread
    obtain ⟨⟨n, r'⟩, hnumber, heq⟩ := (map_eq_ok_iff _ _ _).mp hread
    cases heq
    obtain ⟨hsuffix, happend⟩ := bounded_readNumber true _ _ _ hnumber
    refine ⟨hsuffix.trans (List.suffix_cons _ _), fun fuel depth rest hrest => ?_⟩
    rw [List.cons_append, readValue_minus, happend rest hrest]
    rfl
  · rw [readValue_digit fuel depth hdigit] at hread
    obtain ⟨⟨n, r'⟩, hnumber, heq⟩ := (map_eq_ok_iff _ _ _).mp hread
    cases heq
    obtain ⟨hsuffix, happend⟩ := bounded_readNumber false _ _ _ hnumber
    refine ⟨hsuffix, fun fuel depth rest hrest => ?_⟩
    rw [List.cons_append, readValue_digit fuel depth hdigit, ← List.cons_append, happend rest hrest]
    rfl

theorem finish_eq_ok_iff {α : Type} (r : Except Failure (α × List Char)) (a : α) :
    finish r = .ok a ↔ ∃ rest, r = .ok (a, rest) ∧ skipBlanks rest = [] := by
  rw [finish, bind_eq_ok_iff, Prod.exists]
  constructor
  · rintro ⟨b, rest, rfl, h⟩
    dsimp only at h
    split at h
    · next hempty =>
      cases h
      exact ⟨rest, rfl, List.isEmpty_iff.mp hempty⟩
    · cases h
  · rintro ⟨rest, rfl, hblank⟩
    refine ⟨a, rest, rfl, ?_⟩
    dsimp only
    rw [hblank]
    rfl

theorem readValue_float {x : Binary64} (h : x.ReadsBack) (fuel depth : Nat) {rest : List Char}
    (hrest : EndsNumber rest) :
    readValue fuel depth (x.chars style ++ rest) = .ok (.number (.float x), rest) := by
  have htext : (Value.number (.float x)).json.toList = x.chars style := String.toList_ofList
  rw [Binary64.ReadsBack, parse, htext, finish_eq_ok_iff] at h
  obtain ⟨r, hread, hblank⟩ := h
  obtain ⟨c, cs, hcs, hc⟩ := exists_chars x
  rw [hcs] at hread ⊢
  obtain ⟨hsuffix, happend⟩ := readValue_append hc hread
  -- no blank is written, so nothing is left behind the number
  obtain rfl : r = [] := by
    cases r with
    | nil => rfl
    | cons d ds =>
      have hd : isBlank d = true := List.dropWhile_eq_nil_iff.mp hblank d List.mem_cons_self
      have hmem : d ∈ x.chars style := hcs ▸ hsuffix.subset List.mem_cons_self
      rw [isBlank_of_mem_chars hmem] at hd
      cases hd
  exact happend fuel depth rest hrest

theorem readValue_integer {i : Int} (h : IntegerRange i) (fuel depth : Nat) {rest : List Char}
    (hrest : EndsNumber rest) :
    readValue fuel depth (intChars i ++ rest) = .ok (.number (.integer i h), rest) := by
  have hread := readNumber_integer h hrest
  rw [intChars]
  split
  · next hi =>
    rw [decide_eq_true hi] at hread
    rw [List.cons_append, readValue_minus, hread]
    rfl
  · next hi =>
    obtain ⟨c, cs, hcs, hdigits⟩ := exists_toDigits i.natAbs
    rw [decide_eq_false hi, hcs, List.cons_append] at hread
    rw [hcs, List.cons_append, readValue_digit fuel depth (hdigits c List.mem_cons_self), hread]
    rfl

/-! ## containers -/

theorem nextItem_close (first : Bool) (cs : List Char) :
    nextItem first (']' :: cs) = .ok (false, cs) := rfl

theorem nextItem_first (v : Value) (rest : List Char) :
    nextItem true (v.jsonChars ++ rest) = .ok (true, v.jsonChars ++ rest) := by
  obtain ⟨c, cs, hcs, hblank, hclose, hcomma⟩ := exists_jsonChars v
  rw [hcs, List.cons_append, nextItem, skipBlanks_cons hblank]
  split
  · next heq => cases heq
  · next heq => exact absurd (List.cons.inj heq).1 hclose
  · next heq => exact absurd (List.cons.inj heq).1 hcomma
  · rfl

theorem nextItem_comma (v : Value) (rest : List Char) :
    nextItem false (',' :: (v.jsonChars ++ rest)) = .ok (true, v.jsonChars ++ rest) := by
  obtain ⟨c, cs, hcs, hblank, hclose, -⟩ := exists_jsonChars v
  rw [hcs, List.cons_append, nextItem, skipBlanks_cons rfl]
  split
  · next heq => cases heq
  · next heq => exact absurd (List.cons.inj heq).1 (by decide)
  · next heq =>
    obtain ⟨-, rfl⟩ := List.cons.inj heq
    rw [if_neg Bool.false_ne_true, skipBlanks_cons hblank]
    split
    · next heq => cases heq
    · next heq => exact absurd (List.cons.inj heq).1 hclose
    · rfl
  · next hother => exact absurd rfl (hother _)

theorem nextKey_close (first : Bool) (cs : List Char) :
    nextKey first ('\x7d' :: cs) = .ok (false, cs) := rfl

theorem nextKey_first (cs : List Char) : nextKey true ('"' :: cs) = .ok (true, cs) := rfl

theorem nextKey_comma (cs : List Char) : nextKey false (',' :: '"' :: cs) = .ok (true, cs) := rfl

section
variable {α : Type} {item : Reader α} {fuel : Nat} {first : Bool} {cs cs' cs'' : List Char}

theorem readItems_done (hnext : nextItem first cs = .ok (false, cs')) :
    readItems item (fuel + 1) first cs = .ok ([], cs') := by
  rw [readItems, hnext]
  rfl

theorem readItems_more {a : α} {as : List α} {rest : List Char}
    (hnext : nextItem first cs = .ok (true, cs')) (hitem : item cs' = .ok (a, cs''))
    (hmore : readItems item fuel false cs'' = .ok (as, rest)) :
    readItems item (fuel + 1) first cs = .ok (a :: as, rest) := by
  rw [readItems, hnext]
  show (item cs' >>= _) = _
  rw [hitem]
  show (readItems item fuel false cs'' >>= _) = _
  rw [hmore]
  rfl

theorem readFields_done (hnext : nextKey first cs = .ok (false, cs')) :
    readFields item (fuel + 1) first cs = .ok ([], cs') := by
  rw [readFields, hnext]
  rfl

theorem readFields_more {key : String} {a : α} {as : List (String × α)} {rest : List Char}
    (hnext : nextKey first cs = .ok (true, key.toList.flatMap escape ++ '"' :: ':' :: cs'))
    (hitem : item cs' = .ok (a, cs'')) (hmore : readFields item fuel false cs'' = .ok (as, rest)) :
    readFields item (fuel + 1) first cs = .ok ((key, a) :: as, rest) := by
  rw [readFields, hnext]
  show (readString _ >>= _) = _
  rw [readString_quoted]
  show (item cs' >>= _) = _
  rw [hitem]
  show (readFields item fuel false cs'' >>= _) = _
  rw [hmore]
  show Except.ok ((String.ofList key.toList, a) :: as, rest) = _
  rw [String.ofList_toList]

end

/-! ### what stands behind an item or a field -/

theorem endsNumber_jsonItems (vs : List Value) (rest : List Char) :
    EndsNumber (Value.jsonItems vs ++ rest) := by
  cases vs <;> (rintro c ⟨⟩; decide)

theorem endsNumber_jsonFields (fs : List (String × Value)) (rest : List Char) :
    EndsNumber (Value.jsonFields fs ++ rest) := by
  cases fs <;> (rintro c ⟨⟩; decide)

/-- A reader gives back a value from its text, whatever stands behind it. -/
def Rereads (item : Reader Value) (v : Value) : Prop :=
  ∀ rest, EndsNumber rest → item (v.jsonChars ++ rest) = .ok (v, rest)

theorem readItems_jsonItems {item : Reader Value} {vs : List Value} (h : ∀ v ∈ vs, Rereads item v)
    {fuel : Nat} (long : vs.length < fuel) (rest : List Char) :
    readItems item fuel false (Value.jsonItems vs ++ rest) = .ok (vs, rest) := by
  induction vs generalizing fuel with
  | nil =>
    obtain ⟨fuel, rfl⟩ := Nat.exists_eq_add_one_of_ne_zero (Nat.ne_zero_of_lt long)
    exact readItems_done (nextItem_close false rest)
  | cons v vs ih =>
    obtain ⟨fuel, rfl⟩ := Nat.exists_eq_add_one_of_ne_zero (Nat.ne_zero_of_lt long)
    obtain ⟨hv, hvs⟩ := List.forall_mem_cons.mp h
    rw [Value.jsonItems, List.cons_append, List.cons_append, List.append_assoc]
    exact readItems_more (nextItem_comma v _) (hv _ (endsNumber_jsonItems vs rest))
      (ih hvs (Nat.lt_of_succ_lt_succ long))

theorem readFields_jsonFields {item : Reader Value} {fs : List (String × Value)}
    (h : ∀ f ∈ fs, Rereads item f.2) {fuel : Nat} (long : fs.length < fuel) (rest : List Char) :
    readFields item fuel false (Value.jsonFields fs ++ rest) = .ok (fs, rest) := by
  induction fs generalizing fuel with
  | nil =>
    obtain ⟨fuel, rfl⟩ := Nat.exists_eq_add_one_of_ne_zero (Nat.ne_zero_of_lt long)
    exact readFields_done (nextKey_close false rest)
  | cons f fs ih =>
    obtain ⟨fuel, rfl⟩ := Nat.exists_eq_add_one_of_ne_zero (Nat.ne_zero_of_lt long)
    obtain ⟨hf, hfs⟩ := List.forall_mem_cons.mp h
    have htext : Value.jsonFields (f :: fs) ++ rest = ',' :: '"' :: (f.1.toList.flatMap escape
        ++ '"' :: ':' :: (f.2.jsonChars ++ (Value.jsonFields fs ++ rest))) := by
      rw [Value.jsonFields, quoted]
      simp only [List.cons_append, List.append_assoc, List.nil_append]
    rw [htext]
    exact readFields_more (nextKey_comma _) (hf _ (endsNumber_jsonFields fs rest))
      (ih hfs (Nat.lt_of_succ_lt_succ long))

theorem readItems_array {item : Reader Value} {vs : List Value} (h : ∀ v ∈ vs, Rereads item v)
    {fuel : Nat} (long : vs.length < fuel) (rest : List Char) :
    ∃ cs, (Value.array vs).jsonChars ++ rest = '[' :: cs ∧
      readItems item fuel true cs = .ok (vs, rest) := by
  obtain ⟨fuel, rfl⟩ := Nat.exists_eq_add_one_of_ne_zero (Nat.ne_zero_of_lt long)
  cases vs with
  | nil => exact ⟨']' :: rest, rfl, readItems_done (nextItem_close true rest)⟩
  | cons v vs =>
    obtain ⟨hv, hvs⟩ := List.forall_mem_cons.mp h
    refine ⟨v.jsonChars ++ (Value.jsonItems vs ++ rest), ?_, ?_⟩
    · rw [Value.jsonChars, List.cons_append, List.cons_append, List.append_assoc]
    · exact readItems_more (nextItem_first v _) (hv _ (endsNumber_jsonItems vs rest))
        (readItems_jsonItems hvs (Nat.lt_of_succ_lt_succ long) rest)

theorem readFields_object {item : Reader Value} {fs : List (String × Value)}
    (h : ∀ f ∈ fs, Rereads item f.2) {fuel : Nat} (long : fs.length < fuel) (rest : List Char) :
    ∃ cs, (Value.object fs).jsonChars ++ rest = '\x7b' :: cs ∧
      readFields item fuel true cs = .ok (fs, rest) := by
  obtain ⟨fuel, rfl⟩ := Nat.exists_eq_add_one_of_ne_zero (Nat.ne_zero_of_lt long)
  cases fs with
  | nil => exact ⟨'\x7d' :: rest, rfl, readFields_done (nextKey_close true rest)⟩
  | cons f fs =>
    obtain ⟨hf, hfs⟩ := List.forall_mem_cons.mp h
    refine ⟨'"' :: (f.1.toList.flatMap escape ++ '"' :: ':' ::
      (f.2.jsonChars ++ (Value.jsonFields fs ++ rest))), ?_, ?_⟩
    · rw [Value.jsonChars, quoted]
      simp only [List.cons_append, List.append_assoc, List.nil_append]
    · exact readFields_more (nextKey_first _) (hf _ (endsNumber_jsonFields fs rest))
        (readFields_jsonFields hfs (Nat.lt_of_succ_lt_succ long) rest)

/-! ### how long a text is -/

theorem length_lt_jsonItems (vs : List Value) : vs.length < (Value.jsonItems vs).length := by
  induction vs with
  | nil => exact Nat.one_pos
  | cons v vs ih =>
    rw [Value.jsonItems, List.length_append, List.length_cons, List.length_cons]
    omega

theorem length_le_jsonItems {v : Value} {vs : List Value} (h : v ∈ vs) :
    v.jsonChars.length ≤ (Value.jsonItems vs).length := by
  induction vs with
  | nil => cases h
  | cons w vs ih =>
    rw [Value.jsonItems, List.length_append, List.length_cons]
    rcases List.mem_cons.mp h with rfl | h
    · omega
    · have := ih h
      omega

theorem length_lt_jsonFields (fs : List (String × Value)) :
    fs.length < (Value.jsonFields fs).length := by
  induction fs with
  | nil => exact Nat.one_pos
  | cons f fs ih =>
    rw [Value.jsonFields, List.length_append, List.length_append, List.length_cons, List.length_cons]
    omega

theorem length_le_jsonFields {f : String × Value} {fs : List (String × Value)} (h : f ∈ fs) :
    f.2.jsonChars.length ≤ (Value.jsonFields fs).length := by
  induction fs with
  | nil => cases h
  | cons g fs ih =>
    rw [Value.jsonFields, List.length_append, List.length_append, List.length_cons]
    rcases List.mem_cons.mp h with rfl | h
    · rw [List.length_cons]
      omega
    · have := ih h
      omega

theorem length_array (vs : List Value) : vs.length < (Value.array vs).jsonChars.length ∧
    ∀ v ∈ vs, v.jsonChars.length ≤ (Value.array vs).jsonChars.length := by
  cases vs with
  | nil => exact ⟨Nat.two_pos, nofun⟩
  | cons v vs =>
    rw [Value.jsonChars, List.length_append, List.length_cons, List.length_cons]
    have hnumber := length_lt_jsonItems vs
    refine ⟨by omega, List.forall_mem_cons.mpr ⟨by omega, fun w hw => ?_⟩⟩
    have := length_le_jsonItems hw
    omega

theorem length_object (fs : List (String × Value)) :
    fs.length < (Value.object fs).jsonChars.length ∧
      ∀ f ∈ fs, f.2.jsonChars.length ≤ (Value.object fs).jsonChars.length := by
  cases fs with
  | nil => exact ⟨Nat.two_pos, nofun⟩
  | cons f fs =>
    rw [Value.jsonChars, List.length_append, List.length_append, List.length_cons, List.length_cons,
      List.length_cons]
    have hnumber := length_lt_jsonFields fs
    refine ⟨by omega, List.forall_mem_cons.mpr ⟨by omega, fun g hg => ?_⟩⟩
    have := length_le_jsonFields hg
    omega

/-! ## values -/

theorem readValue_array (fuel depth : Nat) (cs : List Char) :
    readValue fuel (depth + 1) ('[' :: cs)
      = (readItems (readValue fuel depth) fuel true cs).map fun p => (.array p.1, p.2) := by
  rw [readValue.eq_def, skipBlanks_cons rfl]
  show (readItems (readValue fuel depth) fuel true cs >>= fun p => pure (Value.array p.1, p.2)) = _
  cases readItems (readValue fuel depth) fuel true cs <;> rfl

theorem readValue_object (fuel depth : Nat) (cs : List Char) :
    readValue fuel (depth + 1) ('\x7b' :: cs)
      = (readFields (readValue fuel depth) fuel true cs).map
          fun p => (.object (Fields.ofList p.1), p.2) := by
  rw [readValue.eq_def, skipBlanks_cons rfl]
  show (readFields (readValue fuel depth) fuel true cs >>=
    fun p => pure (Value.object (Fields.ofList p.1), p.2)) = _
  cases readFields (readValue fuel depth) fuel true cs <;> rfl

theorem readValue_string (fuel depth : Nat) (s : String) (rest : List Char) :
    readValue fuel depth (quoted s ++ rest) = .ok (.string s, rest) := by
  rw [quoted, List.cons_append, List.cons_append, List.append_assoc, readValue.eq_def,
    skipBlanks_cons rfl]
  show (readString _ >>= _) = _
  rw [List.singleton_append, readString_quoted]
  show Except.ok (Value.string (String.ofList s.toList), rest) = _
  rw [String.ofList_toList]

/-- **The text of a value is read as the value**, whatever stands behind it. -/
theorem readValue_json {depth : Nat} {v : Value} (nested : v.Nested depth)
    (doubles : ∀ x ∈ v.doubles, x.ReadsBack) {fuel : Nat} (long : v.jsonChars.length ≤ fuel) :
    Rereads (readValue fuel depth) v := by
  induction nested with
  | @scalar depth v h =>
    intro rest hrest
    cases v with
    | null =>
      rw [readValue.eq_def]
      rfl
    | bool b =>
      rw [readValue.eq_def]
      cases b <;> rfl
    | number n =>
      cases n with
      | integer i hi => exact readValue_integer hi fuel depth hrest
      | float x => exact readValue_float (doubles x (List.mem_singleton_self x)) fuel depth hrest
    | string s => exact readValue_string fuel depth s rest
    | array vs => cases h
    | object fs => cases h
  | @array depth vs h ih =>
    intro rest hrest
    obtain ⟨hnumber, heach⟩ := length_array vs
    have hitems : ∀ w ∈ vs, Rereads (readValue fuel depth) w := fun w hw =>
      ih w hw (fun x hx => doubles x (Value.mem_doubles_array hw hx)) ((heach w hw).trans long)
    obtain ⟨cs, htext, hread⟩ := readItems_array hitems (hnumber.trans_le long) rest
    rw [htext, readValue_array, hread]
    rfl
  | @object depth fs h distinct ih =>
    intro rest hrest
    obtain ⟨hnumber, heach⟩ := length_object fs
    have hfields : ∀ f ∈ fs, Rereads (readValue fuel depth) f.2 := fun f hf =>
      ih f hf (fun x hx => doubles x (Value.mem_doubles_object hf hx)) ((heach f hf).trans long)
    obtain ⟨cs, htext, hread⟩ := readFields_object hfields (hnumber.trans_le long) rest
    rw [htext, readValue_object, hread]
    show Except.ok (Value.object (Fields.ofList fs), rest) = _
    rw [Fields.ofList_of_nodup distinct]

/-! ## what values are read -/

section
variable {α : Type} {P : α → Prop} {item : Reader α} {first : Bool} {cs r : List Char}

theorem forall_mem_of_readItems (h : ∀ cs a r, item cs = .ok (a, r) → P a) {fuel : Nat}
    {as : List α} (hread : readItems item fuel first cs = .ok (as, r)) : ∀ a ∈ as, P a := by
  induction fuel generalizing first cs as with
  | zero => cases hread
  | succ fuel ih =>
    rw [readItems, bind_eq_ok_iff] at hread
    obtain ⟨⟨more, cs'⟩, -, hread⟩ := hread
    cases more with
    | false =>
      cases hread
      exact nofun
    | true =>
      obtain ⟨⟨a, cs''⟩, hitem, hread⟩ := (bind_eq_ok_iff _ _ _).mp hread
      obtain ⟨⟨as', r'⟩, hmore, hread⟩ := (bind_eq_ok_iff _ _ _).mp hread
      cases hread
      exact List.forall_mem_cons.mpr ⟨h _ _ _ hitem, ih hmore⟩

theorem forall_mem_of_readFields (h : ∀ cs a r, item cs = .ok (a, r) → P a) {fuel : Nat}
    {fs : List (String × α)} (hread : readFields item fuel first cs = .ok (fs, r)) :
    ∀ f ∈ fs, P f.2 := by
  induction fuel generalizing first cs fs with
  | zero => cases hread
  | succ fuel ih =>
    rw [readFields, bind_eq_ok_iff] at hread
    obtain ⟨⟨more, cs'⟩, -, hread⟩ := hread
    cases more with
    | false =>
      cases hread
      exact nofun
    | true =>
      obtain ⟨⟨key, keyRest⟩, -, hread⟩ := (bind_eq_ok_iff _ _ _).mp hread
      obtain ⟨colonRest, -, hread⟩ := (bind_eq_ok_iff _ _ _).mp hread
      obtain ⟨⟨a, cs''⟩, hitem, hread⟩ := (bind_eq_ok_iff _ _ _).mp hread
      obtain ⟨⟨fs', r'⟩, hmore, hread⟩ := (bind_eq_ok_iff _ _ _).mp hread
      cases hread
      exact List.forall_mem_cons.mpr ⟨h _ _ _ hitem, ih hmore⟩

end

/-- **Only values that are not nested too deep and hold no key twice are read.** -/
theorem nested_of_readValue {fuel depth : Nat} {cs r : List Char} {v : Value}
    (h : readValue fuel depth cs = .ok (v, r)) : v.Nested depth := by
  induction depth using Nat.strongRecOn generalizing cs v r with
  | _ depth ih =>
    rw [readValue.eq_def] at h
    split at h
    case h_1 => cases h
    case h_7 =>
      split at h
      · cases h
      next d =>
      obtain ⟨_, hitems, h⟩ := (bind_eq_ok_iff _ _ _).mp h
      cases h
      exact .array (forall_mem_of_readItems (fun _ _ _ hv => ih d (Nat.lt_succ_self d) hv) hitems)
    case h_8 =>
      split at h
      · cases h
      next d =>
      obtain ⟨_, hfields, h⟩ := (bind_eq_ok_iff _ _ _).mp h
      cases h
      exact Value.nested_ofList
        (forall_mem_of_readFields (fun _ _ _ hv => ih d (Nat.lt_succ_self d) hv) hfields)
    case h_9 =>
      split at h
      · obtain ⟨_, -, h⟩ := (bind_eq_ok_iff _ _ _).mp h
        cases h
        exact .scalar rfl
      · cases h
    -- a word, a string or a number is no container
    all_goals
      obtain ⟨_, -, h⟩ := (bind_eq_ok_iff _ _ _).mp h
      cases h
      exact .scalar rfl

end Json

end AccessFilter
