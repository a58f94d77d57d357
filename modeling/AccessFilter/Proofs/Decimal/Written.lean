import AccessFilter.Decimal.Shortest

/-!
# The characters of a written double

In any style a decimal is written with digits, a point, a minus sign and the marks of an exponent, and
starts with a digit.

* `Decimal.mem_chars`, `Binary64.mem_chars`   these characters;
* `Decimal.exists_chars`                      the digit at the start.
-/

namespace AccessFilter

theorem toNat_of_isDigit {c : Char} (h : c.isDigit = true) : 48 ≤ c.toNat ∧ c.toNat ≤ 57 := by
  simpa [Char.isDigit, UInt32.le_iff_toNat_le] using h

theorem isDigit_of_mem_toDigits {n : Nat} {c : Char} (h : c ∈ Nat.toDigits 10 n) :
    c.isDigit = true := Nat.isDigit_of_mem_toDigits (by decide) (by decide) h

theorem exists_toDigits (n : Nat) :
    ∃ c cs, Nat.toDigits 10 n = c :: cs ∧ ∀ d ∈ c :: cs, d.isDigit = true := by
  obtain ⟨c, cs, hcs⟩ := List.exists_cons_of_ne_nil (Nat.toDigits_ne_nil (n := n) (b := 10))
  exact ⟨c, cs, hcs, fun d hd => isDigit_of_mem_toDigits (n := n) (hcs ▸ hd)⟩

theorem head?_toDigits {n : Nat} (hn : 0 < n) : (Nat.toDigits 10 n).head? ≠ some '0' := by
  induction n using Nat.strongRecOn with
  | _ n ih =>
    by_cases hlt : n < 10
    · have hdigit : ∀ k < 10, 0 < k → [k.digitChar].head? ≠ some '0' := by decide
      rw [Nat.toDigits_of_lt_base hlt]
      exact hdigit n hlt hn
    · obtain ⟨d, ds, hds, -⟩ := exists_toDigits (n / 10)
      have hrest := ih (n / 10) (by omega) (by omega)
      rw [Nat.toDigits_of_base_le (by decide) (by omega), hds]
      rw [hds] at hrest
      exact hrest

namespace Decimal

variable (style : DecimalStyle) (d : Decimal)

/-- A decimal is written with digits, a point, a minus sign and the marks of an exponent. -/
theorem mem_chars {c : Char} (h : c ∈ d.chars style) :
    c.isDigit = true ∨ c = '.' ∨ c = 'e' ∨ c = '-' ∨ c ∈ style.exponentMark.toList := by
  have hzeros : ∀ {n : Nat}, c ∈ zeros n → c.isDigit = true := fun hc =>
    List.eq_of_mem_replicate hc ▸ rfl
  obtain ⟨a, ds, hds, hdigits⟩ := exists_toDigits d.digits
  rw [chars, hds] at h
  dsimp only at h
  split at h
  · split at h
    · simp only [List.mem_append, List.mem_cons, List.not_mem_nil, or_false] at h
      rcases h with (h | h) | rfl | rfl
      · exact .inl (hdigits c (List.mem_cons.mpr h))
      · exact .inl (hzeros h)
      · exact .inr (.inl rfl)
      · exact .inl rfl
    · split at h
      · rcases List.mem_append.mp h with h | h
        · exact .inl (hdigits c (List.mem_of_mem_take h))
        · rcases List.mem_cons.mp h with rfl | h
          · exact .inr (.inl rfl)
          · exact .inl (hdigits c (List.mem_of_mem_drop h))
      · simp only [List.mem_append, List.mem_cons] at h
        rcases h with (rfl | rfl | h) | h
        · exact .inl rfl
        · exact .inr (.inl rfl)
        · exact .inl (hzeros h)
        · exact .inl (hdigits c (List.mem_cons.mpr h))
  · rcases List.mem_append.mp h with h | h
    · cases ds with
      | nil => exact .inl (hdigits c h)
      | cons b ds =>
        simp only [List.mem_cons] at h
        rcases h with rfl | rfl | h
        · exact .inl (hdigits _ List.mem_cons_self)
        · exact .inr (.inl rfl)
        · exact .inl (hdigits c (List.mem_cons_of_mem a (List.mem_cons.mpr h)))
    · split at h
      · rcases List.mem_append.mp h with h | h
        · exact .inr (.inr (.inr (.inr h)))
        · exact .inl (isDigit_of_mem_toDigits h)
      · simp only [List.mem_cons] at h
        rcases h with rfl | rfl | h
        · exact .inr (.inr (.inl rfl))
        · exact .inr (.inr (.inr (.inl rfl)))
        · exact .inl (isDigit_of_mem_toDigits h)

theorem exists_chars : ∃ c cs, d.chars style = c :: cs ∧ c.isDigit = true := by
  obtain ⟨a, ds, hds, hdigits⟩ := exists_toDigits d.digits
  have ha := hdigits a List.mem_cons_self
  rw [chars, hds]
  dsimp only
  split
  · split
    · exact ⟨a, _, rfl, ha⟩
    · split
      · exact ⟨a, _, rfl, ha⟩
      · exact ⟨'0', _, rfl, rfl⟩
  · cases ds with
    | nil => exact ⟨a, _, rfl, ha⟩
    | cons b ds => exact ⟨a, _, rfl, ha⟩

end Decimal

theorem Binary64.mem_chars (style : DecimalStyle) (x : Binary64) {c : Char}
    (h : c ∈ x.chars style) :
    c.isDigit = true ∨ c = '.' ∨ c = 'e' ∨ c = '-' ∨ c ∈ style.exponentMark.toList := by
  rw [chars] at h
  split at h
  · rcases List.mem_cons.mp h with rfl | h
    · exact .inr (.inr (.inr (.inl rfl)))
    · exact x.shortest.mem_chars style h
  · exact x.shortest.mem_chars style h

end AccessFilter
