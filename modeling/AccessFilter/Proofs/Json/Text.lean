import AccessFilter.Json.Reader
import AccessFilter.Json.Writer
import Mathlib.Tactic.SplitIfs

/-!
# Written strings read back

* `readString_escape`   a written character reads back;
* `readString_quoted`   so does a written string.
-/

namespace AccessFilter.Json

theorem hexValue?_hexDigit (n : Nat) : hexValue? (hexDigit n) = some (n % 16) := by
  have hall : ∀ d < 16, hexValue? (Nat.digitChar d) = some d := by decide
  exact hall (n % 16) (Nat.mod_lt n (by decide))

theorem hexValue4?_control {c : Char} (h : c.toNat < 0x20) :
    hexValue4? '0' '0' (hexDigit (c.toNat / 16)) (hexDigit c.toNat) = some c.toNat := by
  have hzero : hexValue? '0' = some 0 := rfl
  rw [hexValue4?, hzero, hexValue?_hexDigit, hexValue?_hexDigit]
  show some _ = some _
  congr 1
  omega

/-- A character that is no quote, no backslash and no control stands for itself. -/
theorem readString_plain {c : Char} (quote : c ≠ '"') (backslash : c ≠ '\\')
    (control : ¬ c.toNat < 0x20) (rest : List Char) :
    readString (c :: rest) = consResult c (readString rest) := by
  rw [readString, if_neg control]
  · exact quote
  · exact fun h => absurd h backslash
  · exact fun _ _ _ _ _ h => absurd h backslash
  · exact fun _ h => absurd h backslash
  · exact fun _ _ h => absurd h backslash

theorem readString_escape (c : Char) (rest : List Char) :
    readString (escape c ++ rest) = consResult c (readString rest) := by
  rw [escape]
  split_ifs with quote backslash hb ht hn hf hr control
  · rw [quote]
    rfl
  · rw [backslash]
    rfl
  · rw [hb]
    rfl
  · rw [ht]
    rfl
  · rw [hn]
    rfl
  · rw [hf]
    rfl
  · rw [hr]
    rfl
  · have hunit : isTrailing c.toNat = false ∧ isLeading c.toNat = false := by
      simp only [isTrailing, isLeading, Bool.and_eq_false_iff, decide_eq_false_iff_not]
      omega
    simp only [List.cons_append, List.nil_append]
    rw [readString, hexValue4?_control control]
    simp only [hunit, Bool.false_eq_true, if_false, Char.ofNat_toNat]
  · exact readString_plain quote backslash control rest

/-- **A written string reads back**, whatever stands behind it. -/
theorem readString_quoted (s : String) (rest : List Char) :
    readString (s.toList.flatMap escape ++ '"' :: rest) = .ok (s.toList, rest) := by
  induction s.toList with
  | nil => rfl
  | cons c cs ih => rw [List.flatMap_cons, List.append_assoc, readString_escape, ih, consResult]

end AccessFilter.Json
