import FunnelFlow.Value.Coerce

namespace FunnelFlow

theorem except_bind_eq_ok_iff {ε α β : Type} {x : Except ε α} {f : α → Except ε β} {b : β} :
    x >>= f = .ok b ↔ ∃ a, x = .ok a ∧ f a = .ok b := by
  cases x with
  | ok a => exact ⟨fun h => ⟨a, rfl, h⟩, fun ⟨_, ha, h⟩ => by cases ha; exact h⟩
  | error e => exact ⟨nofun, fun ⟨_, h, _⟩ => nomatch h⟩

theorem except_bind_eq_error_iff {ε α β : Type} {x : Except ε α} {f : α → Except ε β} {e : ε} :
    x >>= f = .error e ↔ x = .error e ∨ ∃ a, x = .ok a ∧ f a = .error e := by
  constructor
  · intro h
    cases x with
    | ok a => exact .inr ⟨a, rfl, h⟩
    | error e' =>
      cases h
      exact .inl rfl
  · rintro (rfl | ⟨a, rfl, h⟩)
    · rfl
    · exact h

theorem except_map_eq_ok_iff {ε α β : Type} {x : Except ε α} {f : α → β} {b : β} :
    x.map f = .ok b ↔ ∃ a, x = .ok a ∧ f a = b := by
  cases x <;> simp [Except.map]

theorem exists_of_mem_mapM_ok {ε α β : Type} {f : α → Except ε β} {as : List α} {bs : List β}
    (h : as.mapM f = .ok bs) {b : β} (hb : b ∈ bs) : ∃ a ∈ as, f a = .ok b := by
  induction as generalizing bs with
  | nil =>
    obtain rfl : [] = bs := by simpa [pure, Except.pure] using h
    simp at hb
  | cons a as ih =>
    rw [List.mapM_cons] at h
    obtain ⟨b', hb', h⟩ := except_bind_eq_ok_iff.mp h
    obtain ⟨bs', hbs', h⟩ := except_bind_eq_ok_iff.mp h
    obtain rfl : b' :: bs' = bs := by simpa [pure, Except.pure] using h
    rcases List.mem_cons.mp hb with rfl | hb
    · exact ⟨a, List.mem_cons_self, hb'⟩
    · obtain ⟨a', ha', hf⟩ := ih hbs' hb
      exact ⟨a', List.mem_cons_of_mem _ ha', hf⟩

theorem mapM_eq_error_iff {ε α β : Type} {f : α → Except ε β} {as : List α} {e : ε} :
    as.mapM f = .error e ↔ ∃ before a after, as = before ++ a :: after ∧
      (∀ b ∈ before, ∃ c, f b = .ok c) ∧ f a = .error e := by
  induction as with
  | nil =>
    constructor
    · rintro ⟨⟩
    · rintro ⟨before, a, after, h, _⟩
      simp at h
  | cons a as ih =>
    rw [List.mapM_cons, except_bind_eq_error_iff]
    constructor
    · rintro (ha | ⟨c, hc, h⟩)
      · exact ⟨[], a, as, rfl, nofun, ha⟩
      · rcases except_bind_eq_error_iff.mp h with h | ⟨_, _, ⟨⟩⟩
        obtain ⟨before, b, after, rfl, hbefore, hb⟩ := ih.mp h
        exact ⟨a :: before, b, after, rfl, List.forall_mem_cons.mpr ⟨⟨c, hc⟩, hbefore⟩, hb⟩
    · rintro ⟨before, b, after, h, hbefore, hb⟩
      cases before with
      | nil =>
        obtain ⟨rfl, rfl⟩ := List.cons.inj h
        exact .inl hb
      | cons a' before =>
        obtain ⟨rfl, rfl⟩ := List.cons.inj h
        obtain ⟨⟨c, hc⟩, hbefore⟩ := List.forall_mem_cons.mp hbefore
        have hrest := ih.mpr ⟨before, b, after, rfl, hbefore, hb⟩
        exact .inr ⟨c, hc, except_bind_eq_error_iff.mpr (.inl hrest)⟩

namespace Checked

variable {α β : Type}

@[simp] theorem map_ok (f : α → β) (a : α) : f <$> Checked.ok a = .ok (f a) := rfl

@[simp] theorem seq_ok (f : α → β) (a : α) : Checked.ok f <*> Checked.ok a = .ok (f a) := rfl

@[simp] theorem within_ok (p : Place) (a : α) : (Checked.ok a).within p = .ok a := rfl

theorem map_eq_ok_iff {f : α → β} {x : Checked α} {b : β} :
    f <$> x = .ok b ↔ ∃ a, x = .ok a ∧ f a = b := by
  cases x with
  | ok a => simp
  | bad issues => exact ⟨nofun, fun ⟨_, h, _⟩ => nomatch h⟩

theorem seq_eq_ok_iff {f : Checked (α → β)} {x : Checked α} {b : β} :
    f <*> x = .ok b ↔ ∃ g a, f = .ok g ∧ x = .ok a ∧ g a = b := by
  cases f with
  | ok g =>
    cases x with
    | ok a => simp
    | bad issues => exact ⟨nofun, fun ⟨_, _, _, h, _⟩ => nomatch h⟩
  | bad first => cases x <;> exact ⟨nofun, fun ⟨_, _, h, _⟩ => nomatch h⟩

theorem within_eq_ok_iff {p : Place} {x : Checked α} {a : α} :
    x.within p = .ok a ↔ x = .ok a := by
  cases x <;> simp [within]

end Checked

namespace Double

theorem magnitudeText_ne_nil (m : Nat) (e : Int) : magnitudeText m e ≠ [] := by
  unfold magnitudeText
  split
  · simp
  · dsimp only
    split
    · unfold pointed
      split <;> simp
    · simp [scientific]

theorem text_ne_empty (x : Double) : x.text ≠ "" := by
  cases x with
  | nan => decide
  | infinite negative => cases negative <;> decide
  | finite negative m e =>
    rw [text, ne_eq, String.ofList_eq_empty_iff, List.append_eq_nil_iff]
    exact fun h => magnitudeText_ne_nil m e h.2

end Double

namespace Coerce

theorem int_toString_ne_empty (n : Int) : toString n ≠ "" := by
  change n.repr ≠ ""
  cases n with
  | ofNat n => exact Nat.repr_ne_empty
  | negSucc n =>
    intro h
    have := congrArg String.length h
    simp [Int.repr, String.length_append] at this

theorem optional_filled_ne_empty {v : Value} {target : Option String}
    (h : optional textOrNumber (if v.isFilled then v else .null) = .ok target) :
    target ≠ some "" := by
  rintro rfl
  split at h
  · next hfilled =>
    cases v with
    | text s =>
      obtain rfl : s = "" := by simpa [optional, textOrNumber, Checked.map] using h
      simp [Value.isFilled] at hfilled
    | int n =>
      have htext : (if Number.isWritable n then Checked.ok (toString n)
          else .fail .integerUnwritable).map some = .ok (some "") := h
      split at htext
      · exact int_toString_ne_empty n (by simpa [Checked.map] using htext)
      · cases htext
    | float x => exact x.text_ne_empty (by simpa [optional, textOrNumber, Checked.map] using h)
    | null => simp [optional] at h
    | bool | instant | list | object =>
      simp [optional, textOrNumber, Checked.map, Checked.fail] at h
  · simp [optional] at h

end Coerce

end FunnelFlow
