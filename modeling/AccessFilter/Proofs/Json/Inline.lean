import AccessFilter.Json.Writer
import AccessFilter.Proofs.Decimal.Written
import Mathlib.Tactic.SplitIfs

/-!
# JSON text stays on its line

Inside strings control characters are escaped, and between strings there are none, so the compact text
of a value is a single line, whatever its strings and keys contain.

* `IsInline`                  a text without control characters;
* `Json.isInline_escape`      an escaped character is written by such a text;
* `Value.isInline_jsonChars`  and so is every value.
-/

namespace AccessFilter

/-- A text without control characters: line feeds and carriage returns are among them. -/
def IsInline (cs : List Char) : Prop := ∀ c ∈ cs, 0x20 ≤ c.toNat

instance (cs : List Char) : Decidable (IsInline cs) :=
  decidable_of_iff (cs.all fun c => decide (0x20 ≤ c.toNat)) (by simp [IsInline])

theorem isInline_nil : IsInline [] := nofun

theorem isInline_cons (c : Char) (cs : List Char) :
    IsInline (c :: cs) ↔ 0x20 ≤ c.toNat ∧ IsInline cs := List.forall_mem_cons

theorem isInline_append (cs ds : List Char) :
    IsInline (cs ++ ds) ↔ IsInline cs ∧ IsInline ds := List.forall_mem_append

theorem IsInline.not_mem_lineEnd {cs : List Char} (h : IsInline cs) : '\n' ∉ cs ∧ '\r' ∉ cs :=
  ⟨fun hc => absurd (h _ hc) (by decide), fun hc => absurd (h _ hc) (by decide)⟩

/-! ## numbers -/

theorem le_toNat_of_isDigit {c : Char} (h : c.isDigit = true) : 0x20 ≤ c.toNat := by
  have hbounds := toNat_of_isDigit h
  omega

theorem isInline_toDigits (n : Nat) : IsInline (Nat.toDigits 10 n) :=
  fun _ hc => le_toNat_of_isDigit (isDigit_of_mem_toDigits hc)

namespace Json

theorem isInline_intChars (i : Int) : IsInline (intChars i) := by
  rw [intChars]
  split
  · exact (isInline_cons _ _).mpr ⟨by decide, isInline_toDigits _⟩
  · exact isInline_toDigits _

theorem isInline_double (x : Binary64) : IsInline (x.chars style) := by
  have hmark : IsInline style.exponentMark.toList := by decide
  intro c hc
  rcases x.mem_chars style hc with hd | rfl | rfl | rfl | hc
  · exact le_toNat_of_isDigit hd
  · decide
  · decide
  · decide
  · exact hmark c hc

/-! ## strings -/

theorem le_toNat_hexDigit (n : Nat) : 0x20 ≤ (hexDigit n).toNat := by
  have hall : ∀ d < 16, 0x20 ≤ (Nat.digitChar d).toNat := by decide
  exact hall (n % 16) (Nat.mod_lt n (by decide))

/-- An escaped character is written without control characters, also if it is one. -/
theorem isInline_escape (c : Char) : IsInline (escape c) := by
  rw [escape]
  split_ifs with quote backslash hb ht hn hf hr control
  · decide
  · decide
  · decide
  · decide
  · decide
  · decide
  · decide
  · simp only [isInline_cons, le_toNat_hexDigit, true_and]
    decide
  · exact (isInline_cons c []).mpr ⟨Nat.le_of_not_lt control, isInline_nil⟩

theorem isInline_quoted (s : String) : IsInline (quoted s) := by
  have hbody : IsInline (s.toList.flatMap escape) := by
    intro d hd
    obtain ⟨c, -, hdc⟩ := List.mem_flatMap.mp hd
    exact isInline_escape c d hdc
  have hquote : IsInline ['"'] := by decide
  rw [quoted, List.cons_append, isInline_cons, isInline_append]
  exact ⟨by decide, hbody, hquote⟩

end Json

/-! ## values -/

theorem Number.isInline_chars (n : Number) : IsInline (n.chars Json.style) := by
  cases n with
  | integer i h => exact Json.isInline_intChars i
  | float x => exact Json.isInline_double x

namespace Value

mutual

/-- **The JSON text of a value has no control characters**, at whatever depth a string has them. -/
theorem isInline_jsonChars : (v : Value) → IsInline v.jsonChars
  | .null => by decide
  | .bool true => by decide
  | .bool false => by decide
  | .number n => n.isInline_chars
  | .string s => Json.isInline_quoted s
  | .array [] => by decide
  | .array (v :: vs) => by
    rw [jsonChars, List.cons_append, isInline_cons, isInline_append]
    exact ⟨by decide, isInline_jsonChars v, isInline_jsonItems vs⟩
  | .object [] => by decide
  | .object ((k, v) :: fs) => by
    simp only [jsonChars, isInline_append, isInline_cons]
    exact ⟨⟨⟨by decide, Json.isInline_quoted k⟩, by decide, isInline_jsonChars v⟩,
      isInline_jsonFields fs⟩

theorem isInline_jsonItems : (vs : List Value) → IsInline (jsonItems vs)
  | [] => by decide
  | v :: vs => by
    rw [jsonItems, List.cons_append, isInline_cons, isInline_append]
    exact ⟨by decide, isInline_jsonChars v, isInline_jsonItems vs⟩

theorem isInline_jsonFields : (fs : List (String × Value)) → IsInline (jsonFields fs)
  | [] => by decide
  | (k, v) :: fs => by
    simp only [jsonFields, isInline_append, isInline_cons]
    exact ⟨⟨⟨by decide, Json.isInline_quoted k⟩, by decide, isInline_jsonChars v⟩,
      isInline_jsonFields fs⟩

end

end Value

end AccessFilter
