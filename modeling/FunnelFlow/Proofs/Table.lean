import FunnelFlow.Table

namespace FunnelFlow

namespace Table

variable {α : Type}

theorem get?_append_of_ne {table rest : Table α} {key : String} (h : ∀ e ∈ table, e.1 ≠ key) :
    get? (table ++ rest) key = get? rest key := by
  induction table with
  | nil => rfl
  | cons entry table ih =>
    have hne : entry.1 ≠ key := h entry List.mem_cons_self
    rw [List.cons_append, get?, if_neg hne]
    exact ih fun e he => h e (List.mem_cons_of_mem _ he)

theorem get?_map_of_mem {keys : List String} (value : String → α) {key : String}
    (h : key ∈ keys) : get? (keys.map fun k => (k, value k)) key = some (value key) := by
  induction keys with
  | nil => simp at h
  | cons k keys ih =>
    by_cases hk : k = key
    · rw [List.map_cons, get?, if_pos hk, hk]
    · rw [List.map_cons, get?, if_neg hk]
      exact ih ((List.mem_cons.mp h).resolve_left (Ne.symm hk))

theorem mem_of_get? {table : Table α} {key : String} {a : α} (h : table.get? key = some a) :
    (key, a) ∈ table := by
  induction table with
  | nil => cases h
  | cons entry table ih =>
    obtain ⟨k, b⟩ := entry
    rw [get?] at h
    split at h
    · next hk =>
      obtain rfl : b = a := by simpa using h
      exact List.mem_cons.mpr (.inl (by rw [hk]))
    · exact List.mem_cons_of_mem _ (ih h)

theorem mem_set {table : Table α} {key : String} {a : α} {e : String × α}
    (h : e ∈ table.set key a) : e = (key, a) ∨ e ∈ table := by
  induction table with
  | nil => exact .inl (by simpa [set] using h)
  | cons entry table ih =>
    obtain ⟨k, b⟩ := entry
    rw [set] at h
    split at h
    · next hk =>
      rcases List.mem_cons.mp h with h | h
      · exact .inl (by rw [h, hk])
      · exact .inr (List.mem_cons_of_mem _ h)
    · rcases List.mem_cons.mp h with h | h
      · exact .inr (List.mem_cons.mpr (.inl h))
      · exact (ih h).imp_right (List.mem_cons_of_mem _)

theorem mem_keys_set {table : Table α} {key k : String} {a : α} (h : k ∈ (table.set key a).keys) :
    k = key ∨ k ∈ table.keys := by
  obtain ⟨e, he, rfl⟩ := List.mem_map.mp h
  rcases mem_set he with rfl | he
  · exact .inl rfl
  · exact .inr (List.mem_map_of_mem he)

theorem nodup_keys_set {table : Table α} (h : table.keys.Nodup) (key : String) (a : α) :
    (table.set key a).keys.Nodup := by
  induction table with
  | nil => simp [set, keys]
  | cons entry table ih =>
    obtain ⟨k, b⟩ := entry
    obtain ⟨hk, hrest⟩ := List.nodup_cons.mp (show (k :: keys table).Nodup from h)
    rw [set]
    split
    · exact h
    · next hne =>
      refine List.nodup_cons.mpr ⟨fun hmem => ?_, ih hrest⟩
      exact (mem_keys_set hmem).elim hne hk

theorem get?_of_mem {table : Table α} (h : table.keys.Nodup) {e : String × α} (he : e ∈ table) :
    table.get? e.1 = some e.2 := by
  induction table with
  | nil => simp at he
  | cons entry table ih =>
    obtain ⟨k, b⟩ := entry
    obtain ⟨hk, hrest⟩ := List.nodup_cons.mp (show (k :: keys table).Nodup from h)
    rcases List.mem_cons.mp he with rfl | hin
    · rw [get?, if_pos rfl]
    · have hne : k ≠ e.1 := by
        rintro rfl
        exact hk (List.mem_map_of_mem hin)
      rw [get?, if_neg hne]
      exact ih hrest hin

theorem get?_eq_none_iff {table : Table α} {key : String} :
    table.get? key = none ↔ key ∉ table.keys := by
  induction table with
  | nil => exact iff_of_true rfl (List.not_mem_nil)
  | cons entry table ih =>
    obtain ⟨k, a⟩ := entry
    have hkeys : keys ((k, a) :: table) = k :: keys table := rfl
    rw [get?, hkeys, List.mem_cons, not_or]
    by_cases hk : k = key
    · simp [hk]
    · rw [if_neg hk, ih, and_iff_right (Ne.symm hk)]

theorem ne_of_get?_eq_none {table : Table α} {key : String} (h : table.get? key = none) :
    ∀ e ∈ table, e.1 ≠ key := by
  rintro e he rfl
  exact get?_eq_none_iff.mp h (List.mem_map_of_mem he)

theorem erase_of_get?_eq_none {table : Table α} {key : String} (h : table.get? key = none) :
    table.erase key = table :=
  List.filter_eq_self.mpr fun e he => by simpa using ne_of_get?_eq_none h e he

theorem nodup_keys_erase {table : Table α} (h : table.keys.Nodup) (key : String) :
    (table.erase key).keys.Nodup := h.sublist (List.filter_sublist.map _)

theorem get?_erase_self (table : Table α) (key : String) : (table.erase key).get? key = none := by
  induction table with
  | nil => rfl
  | cons entry table ih =>
    obtain ⟨k, b⟩ := entry
    by_cases hk : k = key
    · simpa [erase, hk] using ih
    · simpa [erase, hk, get?] using ih

theorem get?_erase_of_ne (table : Table α) {key other : String} (h : other ≠ key) :
    (table.erase key).get? other = table.get? other := by
  induction table with
  | nil => rfl
  | cons entry table ih =>
    obtain ⟨k, b⟩ := entry
    by_cases hk : k = key
    · subst hk
      simpa [erase, get?, h.symm] using ih
    · by_cases ho : k = other
      · subst ho
        simp [erase, hk, get?]
      · simpa [erase, hk, get?, ho] using ih

theorem of_get?_set_eq_none {table : Table α} {key k : String} {a : α}
    (h : (table.set key a).get? k = none) : k ≠ key ∧ table.get? k = none := by
  by_cases hk : k = key
  · rw [hk, get?_set_self] at h
    cases h
  · rw [get?_set_of_ne _ _ hk] at h
    exact ⟨hk, h⟩

theorem of_get?_set_eq_some {table : Table α} {key k : String} {a b : α}
    (h : (table.set key a).get? k = some b) :
    k = key ∧ b = a ∨ k ≠ key ∧ table.get? k = some b := by
  by_cases hk : k = key
  · rw [hk, get?_set_self] at h
    exact .inl ⟨hk, (Option.some.inj h).symm⟩
  · rw [get?_set_of_ne _ _ hk] at h
    exact .inr ⟨hk, h⟩

theorem of_get?_erase_eq_some {table : Table α} {key k : String} {b : α}
    (h : (table.erase key).get? k = some b) : k ≠ key ∧ table.get? k = some b := by
  by_cases hk : k = key
  · rw [hk, get?_erase_self] at h
    cases h
  · rw [get?_erase_of_ne _ hk] at h
    exact ⟨hk, h⟩

theorem set_of_get?_eq_some {table : Table α} {key : String} {a : α}
    (h : table.get? key = some a) : table.set key a = table := by
  induction table with
  | nil => cases h
  | cons entry table ih =>
    obtain ⟨k, b⟩ := entry
    rw [get?] at h
    rw [set]
    split at h
    · next hk =>
      obtain rfl : b = a := by simpa using h
      rw [if_pos hk]
    · next hk => rw [if_neg hk, ih h]

theorem set_of_get?_eq_none {table : Table α} {key : String} (h : table.get? key = none) (a : α) :
    table.set key a = table ++ [(key, a)] := by
  induction table with
  | nil => rfl
  | cons entry table ih =>
    obtain ⟨k, b⟩ := entry
    obtain ⟨hk, hrest⟩ : k ≠ key ∧ get? table key = none := by
      rw [get?] at h
      split at h
      · cases h
      · next hk => exact ⟨hk, h⟩
    rw [set, if_neg hk, ih hrest, List.cons_append]

theorem exists_eq_map {ι : Type} {entry : ι → String × α} {p : ι → Prop} {table : Table α}
    (h : ∀ e ∈ table, ∃ i, entry i = e ∧ p i) :
    ∃ is : List ι, table = is.map entry ∧ ∀ i ∈ is, p i := by
  induction table with
  | nil => exact ⟨[], rfl, by simp⟩
  | cons e table ih =>
    obtain ⟨is, rfl, his⟩ := ih fun e he => h e (List.mem_cons_of_mem _ he)
    obtain ⟨i, rfl, hi⟩ := h e List.mem_cons_self
    exact ⟨i :: is, rfl, List.forall_mem_cons.mpr ⟨hi, his⟩⟩

theorem set_set (table : Table α) (key : String) (a b : α) :
    (table.set key a).set key b = table.set key b := by
  induction table with
  | nil => simp [set]
  | cons entry table ih =>
    obtain ⟨k, c⟩ := entry
    by_cases hk : k = key
    · simp [set, hk]
    · simp [set, hk, ih]

theorem erase_set (table : Table α) (key : String) (a : α) :
    (table.set key a).erase key = table.erase key := by
  induction table with
  | nil => simp [set, erase]
  | cons entry table ih =>
    obtain ⟨k, b⟩ := entry
    by_cases hk : k = key
    · simp [set, erase, hk]
    · simpa [set, erase, hk] using ih

/-- The order of two writes matters only if both keys are new. -/
theorem set_comm {table : Table α} {key other : String} (hne : other ≠ key)
    (hkey : table.get? key ≠ none) (a b : α) :
    (table.set key a).set other b = (table.set other b).set key a := by
  induction table with
  | nil => exact absurd rfl hkey
  | cons entry table ih =>
    obtain ⟨k, c⟩ := entry
    by_cases hk : k = key
    · subst hk
      simp [set, hne.symm]
    · rw [get?, if_neg hk] at hkey
      by_cases ho : k = other
      · subst ho
        simp [set, hne]
      · simp [set, hk, ho, ih hkey]

theorem erase_comm (table : Table α) (key other : String) :
    (table.erase key).erase other = (table.erase other).erase key := by
  simp only [erase, List.filter_filter, Bool.and_comm]

theorem setAll_append (table updates more : Table α) :
    table.setAll (updates ++ more) = (table.setAll updates).setAll more := List.foldl_append

end Table

end FunnelFlow
