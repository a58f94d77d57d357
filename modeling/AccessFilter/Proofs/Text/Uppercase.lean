import AccessFilter.Text.Uppercase

/-!
# Upper case is reached in one step

No letter that is the upper case of another one has an upper case of its own. The tables are compared
as sets of code points, each the bits of one number, so that all letters are looked at in one step.

* `bits`                    a set of numbers as the bits of one;
* `changed`, `reached`      the code points that have another upper case, and those it leads to;
* `upperWide_cases`, `isUpper_of_not_mem_changed`   what the tables say of a character;
* `uppercase_uppercase`     the upper case of a text is its own upper case.
-/

namespace AccessFilter.Text

/-! ## sets as bits -/

/-- The number whose bits are at the given places. -/
def bits : List Nat → Nat
  | [] => 0
  | n :: ns => 1 <<< n ||| bits ns

theorem testBit_bits (ns : List Nat) (n : Nat) : (bits ns).testBit n = true ↔ n ∈ ns := by
  induction ns with
  | nil => simp [bits]
  | cons m ns ih =>
    rw [bits, Nat.testBit_or, Bool.or_eq_true, ih, Nat.one_shiftLeft, Nat.testBit_two_pow,
      decide_eq_true_iff, List.mem_cons, eq_comm]

/-- Numbers without a common bit have no common place. -/
theorem not_mem_of_land_bits {ns ms : List Nat} (h : bits ns &&& bits ms = 0) {n : Nat}
    (hn : n ∈ ms) : n ∉ ns := by
  intro hn'
  have hboth : (bits ns &&& bits ms).testBit n = true := by
    rw [Nat.testBit_and, Bool.and_eq_true]
    exact ⟨(testBit_bits ns n).mpr hn', (testBit_bits ms n).mpr hn⟩
  rw [h, Nat.zero_testBit] at hboth
  cases hboth

/-! ## the tables -/

/-- The code points of a run. -/
def places (run : Nat × Nat × Nat × Int) : List Nat :=
  (List.range ((run.2.1 - run.1) / run.2.2.1 + 1)).map fun i => run.1 + run.2.2.1 * i

theorem mem_places {run : Nat × Nat × Nat × Int} {n : Nat}
    (h : (run.1 ≤ n ∧ n ≤ run.2.1) ∧ (n - run.1) % run.2.2.1 = 0) : n ∈ places run := by
  obtain ⟨⟨hfirst, hlast⟩, hstep⟩ := h
  refine List.mem_map.mpr ⟨(n - run.1) / run.2.2.1, List.mem_range.mpr ?_, ?_⟩
  · exact Nat.lt_succ_of_le (Nat.div_le_div_right (Nat.sub_le_sub_right hlast _))
  · rw [Nat.mul_div_cancel' (Nat.dvd_of_mod_eq_zero hstep), Nat.add_sub_cancel' hfirst]

/-- The code points that have another upper case. -/
def changed : List Nat :=
  List.range' 0x61 26 ++ upperSpecials.map (·.1) ++ upperRanges.flatMap places

/-- The code points that the tables lead to. -/
def reached : List Nat :=
  (upperSpecials.flatMap (·.2) ++ upperRanges.flatMap fun run =>
    (places run).map fun n : Nat => ((n : Int) + run.2.2.2).toNat).map fun u => (Char.ofNat u).toNat

theorem not_mem_changed_of_mem_reached {n : Nat} (h : n ∈ reached) : n ∉ changed :=
  not_mem_of_land_bits (by decide +kernel) h

/-- A character outside ASCII stays, or one of the tables leads to all of its upper case. -/
theorem upperWide_cases (c : Char) :
    upperWide c = [c] ∨ ∀ d ∈ upperWide c, d.toNat ∈ reached := by
  rw [upperWide]
  split
  · next us hspecial =>
    refine .inr fun d hd => ?_
    obtain ⟨u, hu, rfl⟩ := List.mem_map.mp hd
    refine List.mem_map.mpr ⟨u, List.mem_append_left _ ?_, rfl⟩
    exact List.mem_flatMap.mpr ⟨_, List.mem_of_find?_eq_some hspecial, hu⟩
  · split
    · next first last step distance hrun =>
      refine .inr fun d hd => ?_
      cases List.mem_singleton.mp hd
      have hplace := List.find?_some hrun
      simp only [Bool.and_eq_true, decide_eq_true_eq, beq_iff_eq] at hplace
      refine List.mem_map.mpr ⟨_, List.mem_append_right _ ?_, rfl⟩
      exact List.mem_flatMap.mpr ⟨_, List.mem_of_find?_eq_some hrun,
        List.mem_map.mpr ⟨c.toNat, mem_places hplace, rfl⟩⟩
    · exact .inl rfl

/-! ## characters that stay -/

/-- The character has no other upper case. -/
def IsUpper (c : Char) : Prop := upperChars c = [c]

instance (c : Char) : Decidable (IsUpper c) := inferInstanceAs (Decidable (_ = _))

theorem isUpper_toUpper {c : Char} (h : c.toNat < 0x80) : IsUpper c.toUpper := by
  have hall : ∀ n < 0x80, IsUpper (Char.ofNat n).toUpper := by decide +kernel
  have hc := hall c.toNat h
  rwa [Char.ofNat_toNat] at hc

theorem isUpper_of_not_mem_changed {c : Char} (h : c.toNat ∉ changed) : IsUpper c := by
  rw [changed, List.mem_append, List.mem_append, not_or, not_or] at h
  obtain ⟨⟨hletter, hspecial⟩, hrun⟩ := h
  rw [IsUpper, upperChars]
  split
  · next hascii =>
    have hall : ∀ n < 0x80, n ∉ List.range' 0x61 26 → (Char.ofNat n).toUpper = Char.ofNat n := by
      decide +kernel
    have hc := hall c.toNat hascii hletter
    rw [Char.ofNat_toNat] at hc
    rw [hc]
  · rw [upperWide]
    split
    · next us hfound =>
      have hentry := List.find?_some hfound
      rw [beq_iff_eq] at hentry
      exact absurd (List.mem_map.mpr ⟨_, List.mem_of_find?_eq_some hfound, hentry⟩) hspecial
    · split
      · next first last step distance hfound =>
        have hplace := List.find?_some hfound
        simp only [Bool.and_eq_true, decide_eq_true_eq, beq_iff_eq] at hplace
        exact absurd (List.mem_flatMap.mpr
          ⟨_, List.mem_of_find?_eq_some hfound, mem_places hplace⟩) hrun
      · rfl

/-- The characters of an upper case have no other upper case. -/
theorem isUpper_of_mem_upperChars {c d : Char} (h : d ∈ upperChars c) : IsUpper d := by
  rw [upperChars] at h
  split at h
  · next hascii =>
    cases List.mem_singleton.mp h
    exact isUpper_toUpper hascii
  · next hwide =>
    rcases upperWide_cases c with hstay | hreached
    · rw [hstay] at h
      cases List.mem_singleton.mp h
      exact (if_neg hwide).trans hstay
    · exact isUpper_of_not_mem_changed (not_mem_changed_of_mem_reached (hreached d h))

/-- **The upper case of a text is its own upper case.** -/
theorem uppercase_uppercase (s : String) : uppercase (uppercase s) = uppercase s := by
  have hstay : ∀ cs : List Char, (∀ c ∈ cs, IsUpper c) → cs.flatMap upperChars = cs := by
    intro cs hcs
    induction cs with
    | nil => rfl
    | cons c cs ih =>
      obtain ⟨hc, hcs⟩ := List.forall_mem_cons.mp hcs
      have hchars : upperChars c = [c] := hc
      rw [List.flatMap_cons, hchars, ih hcs]
      rfl
  rw [uppercase, uppercase, String.toList_ofList, hstay]
  intro c hc
  obtain ⟨_, _, hc⟩ := List.mem_flatMap.mp hc
  exact isUpper_of_mem_upperChars hc

end AccessFilter.Text
