import AccessFilter.Value.Basic

/-!
# Fields set one after the other

* `ofList_of_nodup`      fields with distinct keys stay as they are;
* `keys_ofList_nodup`    no key is repeated;
* `forall_mem_ofList`    nothing but the given values is there;
* `find?_eq_some_iff`    what is found under distinct keys is what is there;
* `find?_perm`           so their order does not matter.
-/

namespace AccessFilter.Fields

variable {α : Type}

theorem put_of_not_mem {key : String} {value : α} {fields : Fields α}
    (h : key ∉ keys fields) : put key value fields = fields ++ [(key, value)] := by
  induction fields with
  | nil => rfl
  | cons f fields ih =>
    obtain ⟨hf, hfields⟩ := not_or.mp (fun e => h (List.mem_cons.mpr e))
    rw [put, if_neg (Ne.symm hf), ih hfields]
    rfl

theorem ofList_of_nodup {fields : Fields α} (h : (keys fields).Nodup) :
    ofList fields = fields := by
  have hfold : ∀ (rest before : Fields α), (keys (before ++ rest)).Nodup →
      rest.foldl (fun acc f => put f.1 f.2 acc) before = before ++ rest := by
    intro rest
    induction rest with
    | nil => exact fun before _ => (List.append_nil before).symm
    | cons f rest ih =>
      intro before hnodup
      -- the fields before have other keys, so the field is put behind them
      have hnot : f.1 ∉ keys before := by
        rw [keys, List.map_append, List.map_cons] at hnodup
        intro hmem
        exact (List.nodup_append.mp hnodup).2.2 f.1 hmem f.1 List.mem_cons_self rfl
      have hmove : before ++ f :: rest = (before ++ [f]) ++ rest := by simp
      rw [List.foldl_cons, put_of_not_mem hnot, hmove]
      exact ih (before ++ [f]) (hmove ▸ hnodup)
  exact hfold fields [] h

theorem keys_ofList_nodup (fields : Fields α) :
    (keys (ofList fields)).Nodup :=
  List.foldlRecOn (motive := fun acc => (keys acc).Nodup) fields _ List.nodup_nil
    fun acc h f _ => nodup_keys_put f.1 f.2 acc h

theorem mem_put {key : String} {value : α} {fields : Fields α} {f : String × α}
    (h : f ∈ put key value fields) : f.2 = value ∨ f ∈ fields := by
  induction fields with
  | nil => exact .inl (congrArg Prod.snd (List.mem_singleton.mp h))
  | cons g fields ih =>
    rw [put] at h
    split at h
    · rcases List.mem_cons.mp h with rfl | h
      · exact .inl rfl
      · exact .inr (List.mem_cons_of_mem g h)
    · rcases List.mem_cons.mp h with rfl | h
      · exact .inr List.mem_cons_self
      · exact (ih h).imp id (List.mem_cons_of_mem g)

theorem forall_mem_ofList {P : α → Prop} {fields : Fields α} (h : ∀ f ∈ fields, P f.2) :
    ∀ f ∈ ofList fields, P f.2 := by
  refine List.foldlRecOn (motive := fun acc : Fields α => ∀ f ∈ acc, P f.2) fields _
    (fun f hf => absurd hf List.not_mem_nil) fun acc hacc g hg f hf => ?_
  rcases mem_put hf with heq | hf
  · exact heq ▸ h g hg
  · exact hacc f hf

/-! ## finding -/

theorem find?_eq_none_iff (key : String) (fields : Fields α) :
    find? key fields = none ↔ key ∉ keys fields := by
  induction fields with
  | nil => simp [find?, keys]
  | cons f fields ih =>
    obtain ⟨k, v⟩ := f
    by_cases h : k = key
    · simp [find?, keys, h]
    · rw [find?, if_neg h, ih, keys, keys, List.map_cons, List.mem_cons, not_or]
      exact ⟨fun hmem => ⟨Ne.symm h, hmem⟩, And.right⟩

theorem find?_eq_some_iff {fields : Fields α} (nodup : (keys fields).Nodup) (key : String)
    (value : α) : find? key fields = some value ↔ (key, value) ∈ fields := by
  induction fields with
  | nil => simp [find?]
  | cons f fields ih =>
    obtain ⟨k, v⟩ := f
    obtain ⟨hk, hrest⟩ := List.nodup_cons.mp nodup
    by_cases h : k = key
    · subst h
      have hnot : (k, value) ∉ fields := fun hmem => hk (List.mem_map_of_mem (f := (·.1)) hmem)
      simp [find?, hnot, eq_comm]
    · rw [find?, if_neg h, ih hrest, List.mem_cons]
      simp [Ne.symm h]

theorem find?_perm {fields fields' : Fields α} (nodup : (keys fields).Nodup)
    (h : fields.Perm fields') (key : String) : find? key fields = find? key fields' := by
  have hkeys : (keys fields).Perm (keys fields') := h.map _
  have nodup' : (keys fields').Nodup := hkeys.nodup_iff.mp nodup
  apply Option.ext
  intro value
  rw [find?_eq_some_iff nodup, find?_eq_some_iff nodup', h.mem_iff]

end AccessFilter.Fields
