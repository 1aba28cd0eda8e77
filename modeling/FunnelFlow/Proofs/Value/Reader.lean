import FunnelFlow.Service.ContactBook
import FunnelFlow.Proofs.Condition
import FunnelFlow.Proofs.Table
import FunnelFlow.Proofs.Value.Checked

namespace FunnelFlow

theorem Text.ofDigits_lt {ds : List Nat} (h : ∀ d ∈ ds, d < 10) : ofDigits ds < 10 ^ ds.length := by
  have hfold : ∀ n, ds.foldl (fun n d => 10 * n + d) n < (n + 1) * 10 ^ ds.length := by
    induction ds with
    | nil => simp
    | cons d ds ih =>
      intro n
      obtain ⟨hd, hds⟩ := List.forall_mem_cons.mp h
      calc ds.foldl (fun n d => 10 * n + d) (10 * n + d)
        _ < (10 * n + d + 1) * 10 ^ ds.length := ih hds _
        _ ≤ (10 * (n + 1)) * 10 ^ ds.length := Nat.mul_le_mul_right _ (by omega)
        _ = (n + 1) * 10 ^ (ds.length + 1) := by
          rw [Nat.mul_comm 10, Nat.mul_assoc, Nat.pow_succ, Nat.mul_comm 10]
  simpa [ofDigits] using hfold 0

namespace Number

theorem asciiDigit?_lt {c : Char} {d : Nat} (h : Text.asciiDigit? c = some d) : d < 10 := by
  unfold Text.asciiDigit? at h
  split at h
  · next hc =>
    obtain rfl := Option.some.inj h
    have hle : c.toNat ≤ '9'.toNat := hc.2
    have h9 : '9'.toNat = 57 := rfl
    have h0 : '0'.toNat = 48 := rfl
    omega
  · cases h

theorem isWritable_digitsToNat {cs : List Char} (h : cs.length ≤ mostDigits) :
    isWritable (digitsToNat cs : Int) = true := by
  have hdigits : ∀ d ∈ cs.filterMap Text.asciiDigit?, d < 10 := by
    intro d hd
    obtain ⟨c, _, hc⟩ := List.mem_filterMap.mp hd
    exact asciiDigit?_lt hc
  have hlength := Nat.le_trans (List.length_filterMap_le Text.asciiDigit? cs) h
  have hlt : digitsToNat cs < 10 ^ mostDigits :=
    Nat.lt_of_lt_of_le (Text.ofDigits_lt hdigits) (Nat.pow_le_pow_right (by decide) hlength)
  exact decide_eq_true ((Nat.length_toDigits_le_iff (by decide) (by decide)).mpr hlt)

theorem isWritable_neg (n : Int) : isWritable (-n) = isWritable n := by
  rw [isWritable, isWritable, Int.natAbs_neg]

end Number

namespace Json

open Value

theorem toValue_not_isLong {parts : NumberParts} (negative : Bool)
    (h : parts.isWhole = true → parts.whole.length ≤ Number.mostDigits) :
    ¬ (parts.toValue negative).IsLong := by
  unfold NumberParts.toValue
  split
  · next hwhole =>
    have hwritable := Number.isWritable_digitsToNat (h hwhole)
    rw [isLong_int_iff]
    cases negative with
    | false => simp [hwritable]
    | true => simp [Number.isWritable_neg, hwritable]
  · rintro ⟨_, ⟨⟩, _⟩

theorem readNumber_not_isLong {cs rest : List Char} {v : Value}
    (h : readNumber cs = .ok (v, rest)) : ¬ v.IsLong := by
  unfold readNumber at h
  dsimp only at h
  split at h
  · next parts _ =>
    split at h
    · cases h
    · next hshort =>
      obtain ⟨rfl, _⟩ := Prod.mk.inj (Except.ok.inj h)
      apply toValue_not_isLong
      intro hwhole
      simpa [hwhole] using hshort
  · cases h

theorem words_not_isLong : ∀ w ∈ words, ¬ w.2.IsLong := by
  intro w hw
  rw [← Value.isWritable_eq_false_iff, Bool.not_eq_false]
  revert w
  decide

mutual

theorem readValue_not_isLong : ∀ {fuel depth : Nat} {cs rest : List Char} {v : Value},
    readValue fuel depth cs = .ok (v, rest) → ¬ v.IsLong
  | 0, _, _, _, _, h => by cases h
  | fuel + 1, depth, cs, rest, v, h => by
    unfold readValue at h
    split at h
    · obtain ⟨_, _, hv⟩ := except_map_eq_ok_iff.mp h
      cases hv
      rintro ⟨_, ⟨⟩, _⟩
    · split at h
      · cases h
      · split at h
        · cases h
          simp [isLong_list_iff]
        · obtain ⟨⟨items, rest'⟩, hitems, hv⟩ := except_map_eq_ok_iff.mp h
          cases hv
          rw [isLong_list_iff, not_exists]
          exact fun v hv => readItems_not_isLong hitems v hv.1 hv.2
    · split at h
      · cases h
      · split at h
        · cases h
          simp [isLong_object_iff]
        · obtain ⟨⟨fields, rest'⟩, hfields, hv⟩ := except_map_eq_ok_iff.mp h
          cases hv
          rw [isLong_object_iff, not_exists]
          exact fun e he => readFields_not_isLong (by simp) hfields e he.1 he.2
    · split at h
      · next word hword =>
        obtain ⟨w, hw, rfl⟩ := Option.map_eq_some_iff.mp hword
        cases h
        exact words_not_isLong w (List.mem_of_find?_eq_some hw)
      · exact readNumber_not_isLong h

theorem readItems_not_isLong : ∀ {fuel depth : Nat} {cs rest : List Char} {items : List Value},
    readItems fuel depth cs = .ok (items, rest) → ∀ v ∈ items, ¬ v.IsLong
  | 0, _, _, _, _, h => by cases h
  | fuel + 1, depth, cs, rest, items, h => by
    unfold readItems at h
    obtain ⟨⟨v, rest'⟩, hv, h⟩ := except_bind_eq_ok_iff.mp h
    have hfirst := readValue_not_isLong hv
    dsimp only at h
    split at h
    · cases h
      simpa using hfirst
    · obtain ⟨⟨vs, after⟩, hvs, h⟩ := except_bind_eq_ok_iff.mp h
      cases h
      exact List.forall_mem_cons.mpr ⟨hfirst, readItems_not_isLong hvs⟩
    · cases h

theorem readFields_not_isLong : ∀ {fuel depth : Nat} {before fields : Fields} {cs rest : List Char},
    (∀ e ∈ before, ¬ e.2.IsLong) → readFields fuel depth before cs = .ok (fields, rest) →
    ∀ e ∈ fields, ¬ e.2.IsLong
  | 0, _, _, _, _, _, _, h => by cases h
  | fuel + 1, depth, before, fields, cs, rest, hbefore, h => by
    unfold readFields at h
    split at h
    · obtain ⟨⟨key, rest'⟩, _, h⟩ := except_bind_eq_ok_iff.mp h
      dsimp only at h
      split at h
      · obtain ⟨⟨v, rest''⟩, hv, h⟩ := except_bind_eq_ok_iff.mp h
        have hset : ∀ e ∈ before.set key v, ¬ e.2.IsLong := by
          intro e he
          rcases Table.mem_set he with rfl | he
          · exact readValue_not_isLong hv
          · exact hbefore e he
        dsimp only at h
        split at h
        · cases h
          exact hset
        · exact readFields_not_isLong hset h
        · cases h
      · cases h
    · cases h

end

theorem readText_not_isLong {depth : Nat} {text : List Char} {v : Value}
    (h : readText depth text = .ok v) : ¬ v.IsLong := by
  unfold readText at h
  split at h
  · cases h
  · next hread =>
    split at h
    · cases h
      exact readValue_not_isLong hread
    · cases h

theorem read_not_isLong {s : String} {v : Value} (h : read s = .ok v) : ¬ v.IsLong := by
  unfold read at h
  dsimp only at h
  split at h
  · exact readText_not_isLong h
  · split at h
    · exact readText_not_isLong h
    · cases h

end Json

theorem Entries.mem_set {entries : Entries} {key v : Value} {e : Value × Value}
    (h : e ∈ entries.set key v) : e.2 = v ∨ e ∈ entries := by
  induction entries with
  | nil => exact .inl (by rw [List.mem_singleton.mp h])
  | cons entry entries ih =>
    rw [set] at h
    split at h
    · rcases List.mem_cons.mp h with h | h
      · exact .inl (by rw [h])
      · exact .inr (List.mem_cons_of_mem _ h)
    · rcases List.mem_cons.mp h with h | h
      · exact .inr (List.mem_cons.mpr (.inl h))
      · exact (ih h).imp_right (List.mem_cons_of_mem _)

namespace Value

theorem elements_not_isLong {v : Value} {vs : List Value} (hv : ¬ v.IsLong)
    (h : v.elements = .ok vs) : ∀ w ∈ vs, ¬ w.IsLong := by
  have htext (s : String) : ¬ (Value.text s).IsLong := by rintro ⟨_, ⟨⟩, _⟩
  cases v with
  | list items =>
    obtain rfl := Except.ok.inj h
    exact fun w hw => not_isLong_of_mem hv hw
  | text s =>
    obtain rfl := Except.ok.inj h
    intro w hw
    obtain ⟨c, _, rfl⟩ := List.mem_map.mp hw
    exact htext _
  | object fields =>
    obtain rfl := Except.ok.inj h
    intro w hw
    obtain ⟨e, _, rfl⟩ := List.mem_map.mp hw
    exact htext _
  | _ => cases h

theorem toEntry_not_isLong {index : Nat} {pair key v : Value} (hpair : ¬ pair.IsLong)
    (h : pair.toEntry index = .ok (key, v)) : ¬ v.IsLong := by
  unfold toEntry at h
  split at h
  · cases h
  · next key' v' hparts =>
    have hv' := elements_not_isLong hpair hparts v' (by simp)
    split at h
    · cases h
    · cases h
    · obtain ⟨_, rfl⟩ := Prod.mk.inj (Except.ok.inj h)
      exact hv'
  · cases h

theorem entriesFrom_not_isLong {index : Nat} {before entries : Entries} {pairs : List Value}
    (hbefore : ∀ e ∈ before, ¬ e.2.IsLong) (hpairs : ∀ pair ∈ pairs, ¬ pair.IsLong)
    (h : entriesFrom index before pairs = .ok entries) : ∀ e ∈ entries, ¬ e.2.IsLong := by
  induction pairs generalizing index before with
  | nil =>
    obtain rfl := Except.ok.inj h
    exact hbefore
  | cons pair pairs ih =>
    obtain ⟨⟨key, v⟩, hentry, h⟩ := except_bind_eq_ok_iff.mp h
    obtain ⟨hpair, hpairs⟩ := List.forall_mem_cons.mp hpairs
    refine ih ?_ hpairs h
    intro e he
    rcases Entries.mem_set he with he | he
    · rw [he]
      exact toEntry_not_isLong hpair hentry
    · exact hbefore e he

theorem toEntries_not_isLong {v : Value} {entries : Entries} (hv : ¬ v.IsLong)
    (h : v.toEntries = .ok entries) : ∀ e ∈ entries, ¬ e.2.IsLong := by
  have hpairs {pairs : List Value} (hpairs : v.elements = .ok pairs)
      (h : entriesFrom 0 [] pairs = .ok entries) : ∀ e ∈ entries, ¬ e.2.IsLong :=
    entriesFrom_not_isLong (by simp) (elements_not_isLong hv hpairs) h
  cases v with
  | object fields =>
    obtain rfl := Except.ok.inj h
    intro e he
    obtain ⟨field, hfield, rfl⟩ := List.mem_map.mp he
    exact fun hlong => hv (isLong_object_iff.mpr ⟨field, hfield, hlong⟩)
  | list items => exact hpairs rfl h
  | text s => exact hpairs rfl h
  | _ => cases h

end Value

namespace ContactBook

/-- No integer of too many digits is in an attribute that the contact service gives. -/
theorem judge_not_isLong {address : String} {reply : Reply} {entries : Entries}
    (h : judge address reply = .ok entries) (key : String) :
    ¬ (entries.fields.get key).IsLong := by
  have hentries : ∀ e ∈ entries, ¬ e.2.IsLong := by
    cases reply with
    | answer status text =>
      simp only [judge] at h
      split at h
      · split at h
        · next hread => exact Value.toEntries_not_isLong (Json.read_not_isLong hread) h
        · cases h
      · split at h
        · cases h
          simp
        · cases h
    | _ => cases h
  rw [Fields.get]
  cases hfield : entries.fields.get? key with
  | none => exact Value.IsBlank.not_isLong (.inl rfl)
  | some v =>
    obtain ⟨e, he, hfields⟩ := List.mem_filterMap.mp (Table.mem_of_get? hfield)
    split at hfields
    · cases hfields
      exact hentries _ he
    · cases hfields

end ContactBook

end FunnelFlow
