import AccessFilter.Proofs.Json.Value
import AccessFilter.Rule.Read

/-!
# Rules written as JSON text and read again

A rule that was read from any text, in either form, is written as an object, and the text of this object
is read as the same rule: what is absent is left out and read as absent, one string is written as a list,
and the conditions are values that can be written and read again.

* `Rule.Legible`            a rule whose conditions are nested not too deep and hold no key twice;
* `Rule.legible_of_parse`   every rule that is read is one;
* `Rule.written`            the fields that are written for a rule;
* `Rule.parse_json`         the text of a legible rule is read as the rule;
* `Rule.parse_json_of_parse`   so it is for every rule that was read.
-/

namespace AccessFilter.Rule

open Json (Failure)

/-! ## rules that are read -/

/-- A rule whose conditions are nested not too deep and hold no key twice. -/
def Legible (r : Rule) : Prop :=
  ∀ fs, r.conditions = some fs → (Value.object fs).Nested (Json.maxDepth - 1)

theorem legible_empty : ({} : Rule).Legible := nofun

theorem shapeFailure_eq_ok_iff {α : Type} (x : Except Json.ShapeError α) (a : α) :
    shapeFailure x = .ok a ↔ x = .ok a := by
  cases x <;> simp [shapeFailure]

theorem legible_setField {r r' : Rule} (h : r.Legible) {field : Field} {v : Value}
    (nested : v.Nested (Json.maxDepth - 1)) (hset : setField r field v = .ok r') : r'.Legible := by
  cases field with
  | action =>
    obtain ⟨ss, -, rfl⟩ := (map_eq_ok_iff _ _ _).mp hset
    exact h
  | subject =>
    obtain ⟨ss, -, rfl⟩ := (map_eq_ok_iff _ _ _).mp hset
    exact h
  | conditions =>
    cases v with
    | null =>
      cases hset
      exact nofun
    | object fs =>
      cases hset
      rintro _ ⟨⟩
      exact nested
    | _ => cases hset
  | inverted =>
    cases v with
    | bool b =>
      cases hset
      exact h
    | _ => cases hset
  | reason =>
    cases v with
    | null =>
      cases hset
      exact h
    | string s =>
      cases hset
      exact h
    | _ => cases hset

/-- A field that is read is set from a value. -/
theorem exists_of_readField {depth fuel : Nat} {r r' : Rule} {field : Field} {cs rest : List Char}
    (h : readField depth fuel r field cs = .ok (r', rest)) :
    ∃ v : Value, v.Nested depth ∧ setField r field v = .ok r' := by
  have hfull : (Json.readValue fuel depth (Json.skipBlanks cs) >>= fun p =>
      shapeFailure (setField r field p.1) >>= fun r => pure (r, p.2)) = .ok (r', rest) →
      ∃ v : Value, v.Nested depth ∧ setField r field v = .ok r' := by
    intro h
    obtain ⟨⟨v, rest'⟩, hread, h⟩ := (bind_eq_ok_iff _ _ _).mp h
    obtain ⟨r'', hset, h⟩ := (bind_eq_ok_iff _ _ _).mp h
    cases h
    exact ⟨v, Json.nested_of_readValue hread, (shapeFailure_eq_ok_iff _ _).mp hset⟩
  unfold readField at h
  dsimp only at h
  split at h
  all_goals first | exact hfull h | cases h

theorem legible_readField {fuel : Nat} {r r' : Rule} (h : r.Legible) {field : Field}
    {cs rest : List Char}
    (hread : readField (Json.maxDepth - 1) fuel r field cs = .ok (r', rest)) : r'.Legible := by
  obtain ⟨v, nested, hset⟩ := exists_of_readField hread
  exact legible_setField h nested hset

theorem legible_readFields {fuel : Nat} {first : Bool} {seen : List Field} {r r' : Rule}
    (h : r.Legible) {cs rest : List Char}
    (hread : readFields (Json.maxDepth - 1) fuel first seen r cs = .ok (r', rest)) : r'.Legible := by
  induction fuel generalizing first seen r cs with
  | zero => cases hread
  | succ fuel ih =>
    rw [readFields, bind_eq_ok_iff] at hread
    obtain ⟨⟨more, cs'⟩, -, hread⟩ := hread
    cases more with
    | false =>
      cases hread
      exact h
    | true =>
      obtain ⟨⟨key, afterKey⟩, -, hread⟩ := (bind_eq_ok_iff _ _ _).mp hread
      dsimp only at hread
      split at hread
      · next field hfield =>
        split at hread
        · cases hread
        obtain ⟨afterColon, -, hread⟩ := (bind_eq_ok_iff _ _ _).mp hread
        obtain ⟨⟨r'', afterValue⟩, hread', hread⟩ := (bind_eq_ok_iff _ _ _).mp hread
        exact ih (legible_readField h hread') hread
      · obtain ⟨afterColon, -, hread⟩ := (bind_eq_ok_iff _ _ _).mp hread
        obtain ⟨afterValue, -, hread⟩ := (bind_eq_ok_iff _ _ _).mp hread
        exact ih h hread

theorem legible_readItems {fuel : Nat} {first : Bool} {fields : List Field} {r r' : Rule}
    (h : r.Legible) {cs rest : List Char}
    (hread : readItems (Json.maxDepth - 1) fuel first r fields cs = .ok (r', rest)) : r'.Legible := by
  induction fields generalizing first r cs with
  | nil =>
    rw [readItems] at hread
    split at hread
    · cases hread
    · cases hread
      exact h
    · cases hread
  | cons field fields ih =>
    rw [readItems, bind_eq_ok_iff] at hread
    obtain ⟨⟨more, cs'⟩, -, hread⟩ := hread
    cases more with
    | false =>
      cases hread
      exact h
    | true =>
      obtain ⟨⟨r'', afterValue⟩, hfield, hread⟩ := (bind_eq_ok_iff _ _ _).mp hread
      exact ih (legible_readField h hfield) hread

/-- **Every rule that is read is legible.** -/
theorem legible_of_parse {text : String} {r : Rule} (h : parse text = .ok r) : r.Legible := by
  obtain ⟨rest, hread, -⟩ := (Json.finish_eq_ok_iff _ _).mp h
  rw [read] at hread
  split at hread
  · exact legible_readFields legible_empty hread
  · exact legible_readItems legible_empty hread
  · cases hread

/-! ## rules that are written -/

/-- The fields that are written for a rule, in order. -/
def written (r : Rule) : List (Field × Value) :=
  [(.action, .array (r.actions.map .string)), (.subject, .array (r.subjects.map .string))] ++
    (r.conditions.toList.map fun fs => (.conditions, .object fs)) ++
    (if r.denies then [(.inverted, .bool true)] else []) ++
    (r.reason.toList.map fun s => (.reason, .string s))

def keyed (pairs : List (Field × Value)) : List (String × Value) :=
  pairs.map fun p => (p.1.key, p.2)

theorem toValue_eq (r : Rule) : r.toValue = .object (keyed r.written) := by
  obtain ⟨actions, subjects, conditions, denies, reason⟩ := r
  cases conditions <;> cases denies <;> cases reason <;> rfl

theorem nodup_written (r : Rule) : (r.written.map Prod.fst).Nodup := by
  have hfields : r.written.map Prod.fst = [.action, .subject] ++
      (if r.conditions.isSome then [.conditions] else []) ++
      (if r.denies then [.inverted] else []) ++ (if r.reason.isSome then [.reason] else []) := by
    obtain ⟨actions, subjects, conditions, denies, reason⟩ := r
    cases conditions <;> cases denies <;> cases reason <;> rfl
  rw [hfields]
  cases r.conditions.isSome <;> cases r.denies <;> cases r.reason.isSome <;> decide

def setAll (r : Rule) (pairs : List (Field × Value)) : Except Json.ShapeError Rule :=
  pairs.foldlM (fun r p => setField r p.1 p.2) r

theorem setField_action (r : Rule) (ss : List String) :
    setField r .action (.array (ss.map .string)) = .ok { r with actions := ss } := by
  rw [setField, oneOrMany, oneOrMany?, strings?_map_string]
  rfl

theorem setField_subject (r : Rule) (ss : List String) :
    setField r .subject (.array (ss.map .string)) = .ok { r with subjects := ss } := by
  rw [setField, oneOrMany, oneOrMany?, strings?_map_string]
  rfl

/-- **The fields that are written make the rule.** -/
theorem setAll_written (r : Rule) : setAll {} r.written = .ok r := by
  obtain ⟨actions, subjects, conditions, denies, reason⟩ := r
  rw [setAll, written, List.append_assoc, List.append_assoc, List.cons_append, List.foldlM_cons,
    setField_action]
  show (setField _ .subject (.array (subjects.map .string)) >>= _) = _
  rw [setField_subject]
  cases conditions <;> cases denies <;> cases reason <;> rfl

theorem toList_json {r : Rule} {field : Field} {v : Value} {pairs : List (Field × Value)}
    (h : r.written = (field, v) :: pairs) :
    r.json.toList = '\x7b' :: '"' :: (field.key.toList.flatMap Json.escape
      ++ '"' :: ':' :: (v.jsonChars ++ (Value.jsonFields (keyed pairs) ++ []))) := by
  rw [json, Value.json, String.toList_ofList, toValue_eq, h, keyed, List.map_cons, Value.jsonChars,
    Json.quoted]
  simp only [List.cons_append, List.append_assoc, List.nil_append, List.append_nil]
  rfl

theorem forall_mem_written {P : Value → Prop} {r : Rule}
    (strings : ∀ ss : List String, P (.array (ss.map .string)))
    (conditions : ∀ fs, r.conditions = some fs → P (.object fs)) (inverted : P (.bool true))
    (reason : ∀ s, P (.string s)) : ∀ p ∈ r.written, P p.2 := by
  intro p hp
  simp only [written, List.mem_append, List.mem_cons, List.not_mem_nil, or_false, List.mem_map,
    Option.mem_toList] at hp
  rcases hp with (((rfl | rfl) | ⟨fs, hfs, rfl⟩) | hp) | ⟨s, -, rfl⟩
  · exact strings r.actions
  · exact strings r.subjects
  · exact conditions fs hfs
  · split at hp
    · cases List.mem_singleton.mp hp
      exact inverted
    · cases hp
  · exact reason s

theorem nested_of_mem_written {r : Rule} (h : r.Legible) :
    ∀ p ∈ r.written, p.2.Nested (Json.maxDepth - 1) := by
  refine forall_mem_written (fun ss => ?_) h (.scalar rfl) fun s => .scalar rfl
  show Value.Nested (Json.maxDepth - 2 + 1) _
  refine .array fun v hv => ?_
  obtain ⟨s, -, rfl⟩ := List.mem_map.mp hv
  exact .scalar rfl

def doubles (r : Rule) : List Binary64 := r.conditions.toList.flatMap fun fs => (Value.object fs).doubles

theorem doubles_strings (ss : List String) : (Value.array (ss.map .string)).doubles = [] := by
  rw [Value.doubles]
  induction ss with
  | nil => rfl
  | cons s ss ih =>
    rw [List.map_cons, Value.doublesIn, ih]
    rfl

theorem mem_doubles_of_mem_written {r : Rule} {x : Binary64} :
    ∀ p ∈ r.written, x ∈ p.2.doubles → x ∈ r.doubles := by
  refine forall_mem_written (P := fun v => x ∈ v.doubles → x ∈ r.doubles) (fun ss h => ?_)
    (fun fs hfs h => ?_) nofun fun s => nofun
  · rw [doubles_strings] at h
    cases h
  · exact List.mem_flatMap.mpr ⟨fs, Option.mem_toList.mpr hfs, h⟩

/-! ## written rules that are read -/

section
variable {depth fuel : Nat} {r r' : Rule} {field : Field} {v : Value} {rest : List Char}

/-- A value that can be set is read for its field: its first character is one that the field asks
for. -/
theorem readField_written (hset : setField r field v = .ok r')
    (hread : Json.readValue fuel depth (v.jsonChars ++ rest) = .ok (v, rest)) :
    readField depth fuel r field (v.jsonChars ++ rest) = .ok (r', rest) := by
  have hskip : Json.skipBlanks (v.jsonChars ++ rest) = v.jsonChars ++ rest := by
    obtain ⟨c, cs, hcs, hblank, -⟩ := Json.exists_jsonChars v
    rw [hcs, List.cons_append, Json.skipBlanks_cons hblank]
  have hfull : (Json.readValue fuel depth (v.jsonChars ++ rest) >>= fun p =>
      shapeFailure (setField r field p.1) >>= fun r => pure (r, p.2)) = .ok (r', rest) := by
    rw [hread, ok_bind, hset, shapeFailure, ok_bind]
    rfl
  unfold readField
  rw [hskip]
  cases field with
  | action => exact hfull
  | subject => exact hfull
  | conditions =>
    cases v with
    | null => exact hfull
    | object fs => cases fs <;> exact hfull
    | _ => cases hset
  | inverted =>
    cases v with
    | bool b => cases b <;> exact hfull
    | _ => cases hset
  | reason =>
    cases v with
    | null => exact hfull
    | string s => exact hfull
    | _ => cases hset

theorem readFields_more {first : Bool} {seen : List Field} {cs : List Char}
    {out : Rule × List Char} (hnew : field ∉ seen) (hset : setField r field v = .ok r')
    (hnext : Json.nextKey first cs = .ok (true, field.key.toList.flatMap Json.escape
      ++ '"' :: ':' :: (v.jsonChars ++ rest)))
    (hread : Json.readValue fuel depth (v.jsonChars ++ rest) = .ok (v, rest))
    (hmore : readFields depth fuel false (field :: seen) r' rest = .ok out) :
    readFields depth (fuel + 1) first seen r cs = .ok out := by
  rw [readFields, hnext, ok_bind]
  dsimp only
  rw [if_pos rfl, Json.readString_quoted, ok_bind]
  dsimp only
  rw [String.ofList_toList, ofKey?_key]
  dsimp only
  rw [if_neg hnew]
  show (readField depth fuel r field (v.jsonChars ++ rest) >>= _) = _
  rw [readField_written hset hread]
  exact hmore

theorem readFields_jsonFields {pairs : List (Field × Value)} {seen : List Field}
    (hset : setAll r pairs = .ok r') (distinct : (pairs.map Prod.fst).Nodup)
    (new : ∀ p ∈ pairs, p.1 ∉ seen)
    (values : ∀ p ∈ pairs, ∀ fuel, p.2.jsonChars.length ≤ fuel →
      Json.Rereads (Json.readValue fuel depth) p.2)
    (long : (Value.jsonFields (keyed pairs)).length ≤ fuel) (rest : List Char) :
    readFields depth fuel false seen r (Value.jsonFields (keyed pairs) ++ rest) = .ok (r', rest) := by
  induction pairs generalizing fuel seen r with
  | nil =>
    obtain ⟨fuel, rfl⟩ := Nat.exists_eq_add_one_of_ne_zero (Nat.ne_zero_of_lt long)
    cases hset
    rw [readFields]
    rfl
  | cons p pairs ih =>
    obtain ⟨field, v⟩ := p
    obtain ⟨r'', hfield, hset⟩ := (bind_eq_ok_iff _ _ _).mp hset
    obtain ⟨hfresh, distinct⟩ := List.nodup_cons.mp distinct
    obtain ⟨hnew, new⟩ := List.forall_mem_cons.mp new
    obtain ⟨hvalue, values⟩ := List.forall_mem_cons.mp values
    have hlong : v.jsonChars.length + 1 ≤ fuel ∧
        (Value.jsonFields (keyed pairs)).length + 1 ≤ fuel := by
      rw [keyed, List.map_cons, Value.jsonFields, List.length_append, List.length_append,
        List.length_cons, List.length_cons, ← keyed] at long
      dsimp only at long
      omega
    obtain ⟨fuel, rfl⟩ : ∃ n, fuel = n + 1 := ⟨fuel - 1, by omega⟩
    have htext : Value.jsonFields (keyed ((field, v) :: pairs)) ++ rest = ',' :: '"' ::
        (field.key.toList.flatMap Json.escape ++ '"' :: ':' ::
          (v.jsonChars ++ (Value.jsonFields (keyed pairs) ++ rest))) := by
      rw [keyed, List.map_cons, Value.jsonFields, Json.quoted]
      simp only [List.cons_append, List.append_assoc, List.nil_append]
      rfl
    rw [htext]
    refine readFields_more hnew hfield (Json.nextKey_comma _)
      (hvalue fuel (Nat.le_of_succ_le_succ hlong.1) _ (Json.endsNumber_jsonFields _ rest)) ?_
    refine ih hset distinct (fun q hq hmem => ?_) values (Nat.le_of_succ_le_succ hlong.2)
    rcases List.mem_cons.mp hmem with heq | hmem
    · exact hfresh (heq ▸ List.mem_map_of_mem hq)
    · exact new q hq hmem

end

/-- **The text of a legible rule is read as the rule.** -/
theorem parse_json {r : Rule} (h : r.Legible) (doubles : ∀ x ∈ r.doubles, x.ReadsBack) :
    parse r.json = .ok r := by
  have hvalues : ∀ p ∈ r.written, ∀ fuel, p.2.jsonChars.length ≤ fuel →
      Json.Rereads (Json.readValue fuel (Json.maxDepth - 1)) p.2 := fun p hp fuel long =>
    Json.readValue_json (nested_of_mem_written h p hp)
      (fun x hx => doubles x (mem_doubles_of_mem_written p hp hx)) long
  have hset := setAll_written r
  have distinct := nodup_written r
  obtain ⟨⟨field, v⟩, pairs, hpairs⟩ : ∃ p pairs, r.written = p :: pairs := ⟨_, _, rfl⟩
  rw [hpairs] at hvalues hset distinct
  obtain ⟨r', hfield, hset⟩ := (bind_eq_ok_iff _ _ _).mp hset
  obtain ⟨hfresh, distinct⟩ := List.nodup_cons.mp distinct
  obtain ⟨hvalue, hvalues⟩ := List.forall_mem_cons.mp hvalues
  rw [parse, toList_json hpairs, Json.finish_eq_ok_iff]
  refine ⟨[], ?_, rfl⟩
  rw [read, Json.skipBlanks_cons rfl]
  show readFields (Json.maxDepth - 1) (_ + 1) true [] {} _ = _
  refine readFields_more List.not_mem_nil hfield (Json.nextKey_first _)
    (hvalue _ ?_ _ (Json.endsNumber_jsonFields _ [])) ?_
  · simp only [List.length_cons, List.length_append]
    omega
  · refine readFields_jsonFields hset distinct (fun p hp hmem => ?_) hvalues ?_ []
    · exact hfresh (List.mem_singleton.mp hmem ▸ List.mem_map_of_mem hp)
    · simp only [List.length_cons, List.length_append]
      omega

/-- **Rules round-trip through JSON.** Whatever the text from which a rule was read, the compact text of
the rule is read as the same rule, and so written as the same text, if what is written for each double in
its conditions is read as the double. -/
theorem parse_json_of_parse {text : String} {r : Rule} (h : parse text = .ok r)
    (doubles : ∀ x ∈ r.doubles, x.ReadsBack) :
    parse r.json = .ok r ∧ (parse r.json).map json = .ok r.json := by
  have hparse := parse_json (legible_of_parse h) doubles
  exact ⟨hparse, by rw [hparse]; rfl⟩

/-- One string, escapes, a key that is given twice, an unknown key and numbers that differ in their kind
only. -/
theorem parse_json_of_parse_kinds :
    let text := "\x7b \"subject\": \"S\\u0041\\/\\n\", \"note\": [1e999], \"action\": [\"read\"],\n" ++
      "  \"conditions\": \x7b\"b\": 1, \"a\": \x7b\"$in\": [1, 1.0, -0, 2.50e1, null, []]\x7d," ++
      " \"b\": \"\\\"\"\x7d,\n" ++
      "  \"inverted\": false, \"reason\": \"\"\x7d"
    ∃ r, parse text = .ok r ∧ (parse r.json = .ok r ∧ (parse r.json).map json = .ok r.json) ∧
      (∀ x ∈ r.doubles, x.ReadsBack) ∧ r.doubles.length = 3 ∧
      r.json = "\x7b\"action\":[\"read\"],\"subject\":[\"SA/\\n\"]," ++
        "\"conditions\":\x7b\"b\":\"\\\"\",\"a\":\x7b\"$in\":[1,1.0,-0.0,25.0,null,[]]\x7d\x7d," ++
        "\"reason\":\"\"\x7d" := by
  intro text
  exact exists_ok_of_any (fun r hr hQ => parse_json_of_parse hr hQ.1) (by decide +kernel)

end AccessFilter.Rule
