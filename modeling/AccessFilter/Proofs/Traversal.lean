/-!
# Steps that may fail

* `fault?`                    the fault of a result;
* `bind_eq_ok_iff`            one step after another;
* `mapM_eq_ok_iff`, `exists_mapM_ok_iff`   a step for each item of a list: all succeed, or
* `fault?_mapM`               the first fault ends it.
-/

namespace AccessFilter

variable {ε α β : Type}

def fault? : Except ε α → Option ε
  | .error e => some e
  | .ok _ => none

theorem fault?_map (f : α → β) (x : Except ε α) : fault? (x.map f) = fault? x := by
  cases x <;> rfl

theorem fault?_eq_some_iff (x : Except ε α) (e : ε) : fault? x = some e ↔ x = .error e := by
  cases x <;> simp [fault?]

theorem map_eq_ok_iff (f : α → β) (x : Except ε α) (b : β) :
    x.map f = .ok b ↔ ∃ a, x = .ok a ∧ f a = b := by
  cases x <;> simp [Except.map]

theorem ok_bind (a : α) (f : α → Except ε β) : (Except.ok a >>= f) = f a := rfl

theorem bind_eq_ok_iff (f : α → Except ε β) (x : Except ε α) (b : β) :
    (x >>= f) = .ok b ↔ ∃ a, x = .ok a ∧ f a = .ok b := by
  cases x <;> simp [bind, Except.bind]

/-- A result whose properties are proved or computed. -/
theorem exists_ok_of_any {x : Except ε α} {P Q : α → Prop} [DecidablePred Q]
    (hP : ∀ a, x = .ok a → Q a → P a)
    (hQ : x.toOption.any (fun a => decide (Q a)) = true) :
    ∃ a, x = .ok a ∧ P a ∧ Q a := by
  cases x with
  | error e => cases hQ
  | ok a =>
    have hq : Q a := of_decide_eq_true hQ
    exact ⟨a, rfl, hP a rfl hq, hq⟩

theorem mapM_cons_ok (f : α → Except ε β) (a : α) (b : β) (l : List α) (h : f a = .ok b) :
    (a :: l).mapM f = (l.mapM f).map (b :: ·) := by
  rw [List.mapM_cons, h]
  rfl

theorem mapM_cons_error (f : α → Except ε β) (a : α) (e : ε) (l : List α) (h : f a = .error e) :
    (a :: l).mapM f = .error e := by
  rw [List.mapM_cons, h]
  rfl

/-- A traversal ends with the first fault. -/
theorem fault?_mapM (f : α → Except ε β) (l : List α) :
    fault? (l.mapM f) = l.findSome? fun a => fault? (f a) := by
  induction l with
  | nil => rfl
  | cons a l ih =>
    cases h : f a with
    | error e => rw [mapM_cons_error f a e l h, List.findSome?_cons, h]; rfl
    | ok b => rw [mapM_cons_ok f a b l h, fault?_map, ih, List.findSome?_cons, h]; rfl

/-- A traversal succeeds when every step does, with the results in order. -/
theorem mapM_eq_ok_iff (f : α → Except ε β) (l : List α) (bs : List β) :
    l.mapM f = .ok bs ↔ l.map f = bs.map .ok := by
  induction l generalizing bs with
  | nil =>
    cases bs with
    | nil => exact ⟨fun _ => rfl, fun _ => rfl⟩
    | cons b bs => exact ⟨nofun, nofun⟩
  | cons a l ih =>
    cases h : f a with
    | error e =>
      rw [mapM_cons_error f a e l h, List.map_cons, h]
      refine ⟨nofun, fun hm => ?_⟩
      cases bs with
      | nil => cases hm
      | cons b bs => cases (List.cons.inj hm).1
    | ok b =>
      rw [mapM_cons_ok f a b l h, List.map_cons, h]
      cases bs with
      | nil => cases l.mapM f <;> exact ⟨nofun, nofun⟩
      | cons c bs =>
        rw [List.map_cons, List.cons.injEq, ← ih bs]
        cases l.mapM f <;> simp [Except.map]

/-- A traversal gets to its end exactly when every step succeeds. -/
theorem exists_mapM_ok_iff (f : α → Except ε β) (l : List α) :
    (∃ bs, l.mapM f = .ok bs) ↔ ∀ a ∈ l, ∃ b, f a = .ok b := by
  induction l with
  | nil => exact ⟨fun _ => by simp, fun _ => ⟨[], rfl⟩⟩
  | cons a l ih =>
    rw [List.forall_mem_cons, ← ih]
    cases h : f a with
    | error e => simp [mapM_cons_error f a e l h]
    | ok b =>
      rw [mapM_cons_ok f a b l h]
      constructor
      · rintro ⟨bs, hbs⟩
        obtain ⟨bs', hl, -⟩ := (map_eq_ok_iff _ _ _).mp hbs
        exact ⟨⟨b, rfl⟩, bs', hl⟩
      · rintro ⟨-, bs, hl⟩
        exact ⟨b :: bs, (map_eq_ok_iff _ _ _).mpr ⟨bs, hl, rfl⟩⟩

theorem mem_of_mapM {f : α → Except ε β} {l : List α} {bs : List β} (h : l.mapM f = .ok bs)
    (b : β) : b ∈ bs ↔ ∃ a ∈ l, f a = .ok b := by
  have hm := (mapM_eq_ok_iff f l bs).mp h
  constructor
  · intro hb
    have hf : Except.ok b ∈ l.map f := hm ▸ List.mem_map_of_mem hb
    exact List.mem_map.mp hf
  · rintro ⟨a, ha, hf⟩
    have hb : Except.ok b ∈ bs.map (Except.ok (ε := ε)) := hm ▸ hf ▸ List.mem_map_of_mem ha
    obtain ⟨c, hc, e⟩ := List.mem_map.mp hb
    exact Except.ok.inj e ▸ hc

theorem exists_of_mapM {f : α → Except ε β} {l : List α} {bs : List β} (h : l.mapM f = .ok bs)
    {a : α} (ha : a ∈ l) : ∃ b ∈ bs, f a = .ok b := by
  have hf : f a ∈ bs.map (Except.ok (ε := ε)) :=
    (mapM_eq_ok_iff f l bs).mp h ▸ List.mem_map_of_mem ha
  obtain ⟨b, hb, e⟩ := List.mem_map.mp hf
  exact ⟨b, hb, e.symm⟩

end AccessFilter
