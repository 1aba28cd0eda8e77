import FunnelFlow.Text.Percent
import Mathlib.Data.Set.Function
import Mathlib.Tactic.SplitIfs

namespace FunnelFlow.Text

variable {safe : Char → Bool} {c d : Char} {cs ds : List Char}

theorem hexDigit?_upperHexDigit {n : Nat} (h : n < 16) : hexDigit? (upperHexDigit n) = some n := by
  revert n
  decide

theorem percentBytes_percentByte {b : Nat} (hb : b < 256) (rest : List Char) :
    percentBytes (percentByte b ++ rest) = b :: percentBytes rest := by
  have hhigh := hexDigit?_upperHexDigit (n := b / 16) (by omega)
  have hlow := hexDigit?_upperHexDigit (n := b % 16) (by omega)
  simp only [percentByte, List.cons_append, List.nil_append, percentBytes, hhigh, hlow]
  rw [Nat.div_add_mod]

theorem percentBytes_cons_of_ne (hc : c ≠ '%') (rest : List Char) :
    percentBytes (c :: rest) = utf8Bytes c ++ percentBytes rest := by
  rw [percentBytes]
  rintro a b rest rfl
  exact absurd rfl hc

theorem toNat_lt (c : Char) : c.toNat < 0x110000 := by
  have hvalid := c.valid
  simp only [UInt32.isValidChar, Nat.isValidChar] at hvalid
  change c.val.toNat < _
  omega

/-- The four lengths of a character, each with the codes that have it. -/
theorem utf8Bytes_cases (c : Char) :
    (c.toNat < 0x80 ∧ utf8Bytes c = [c.toNat]) ∨
    (0x80 ≤ c.toNat ∧ c.toNat < 0x800 ∧
      utf8Bytes c = [0xc0 + c.toNat / 0x40, 0x80 + c.toNat % 0x40]) ∨
    (0x800 ≤ c.toNat ∧ c.toNat < 0x10000 ∧ utf8Bytes c =
      [0xe0 + c.toNat / 0x1000, 0x80 + c.toNat / 0x40 % 0x40, 0x80 + c.toNat % 0x40]) ∨
    (0x10000 ≤ c.toNat ∧ utf8Bytes c = [0xf0 + c.toNat / 0x40000,
      0x80 + c.toNat / 0x1000 % 0x40, 0x80 + c.toNat / 0x40 % 0x40, 0x80 + c.toNat % 0x40]) := by
  unfold utf8Bytes
  dsimp only
  split_ifs with h₁ h₂ h₃
  · exact .inl ⟨h₁, rfl⟩
  · exact .inr (.inl ⟨by omega, h₂, rfl⟩)
  · exact .inr (.inr (.inl ⟨by omega, h₃, rfl⟩))
  · exact .inr (.inr (.inr ⟨by omega, rfl⟩))

theorem utf8Bytes_lt (c : Char) : ∀ b ∈ utf8Bytes c, b < 0x100 := by
  have hc := toNat_lt c
  rcases utf8Bytes_cases c with ⟨_, h⟩ | ⟨_, _, h⟩ | ⟨_, _, h⟩ | ⟨_, h⟩ <;>
    · simp only [h, List.forall_mem_cons, List.not_mem_nil, false_implies, implies_true, and_true]
      omega

theorem utf8Bytes_ne_nil (c : Char) : utf8Bytes c ≠ [] := by
  rcases utf8Bytes_cases c with ⟨_, h⟩ | ⟨_, _, h⟩ | ⟨_, _, h⟩ | ⟨_, h⟩ <;> simp [h]

/-- The first byte tells the length, and all of them the character. -/
theorem eq_of_utf8Bytes_append {xs ys : List Nat} (h : utf8Bytes c ++ xs = utf8Bytes d ++ ys) :
    c = d ∧ xs = ys := by
  have hc := toNat_lt c
  have hd := toNat_lt d
  suffices hsame : c.toNat = d.toNat by
    obtain rfl : c = d := Char.toNat_inj.mp hsame
    exact ⟨rfl, List.append_cancel_left h⟩
  rcases utf8Bytes_cases c with ⟨_, hcs⟩ | ⟨_, _, hcs⟩ | ⟨_, _, hcs⟩ | ⟨_, hcs⟩ <;>
  rcases utf8Bytes_cases d with ⟨_, hds⟩ | ⟨_, _, hds⟩ | ⟨_, _, hds⟩ | ⟨_, hds⟩ <;>
    · simp only [hcs, hds, List.cons_append, List.nil_append, List.cons.injEq] at h
      omega

def textBytes (cs : List Char) : List Nat := cs.flatMap utf8Bytes

theorem textBytes_injective : Function.Injective textBytes := by
  intro cs
  induction cs with
  | nil =>
    intro ds h
    cases ds with
    | nil => rfl
    | cons d ds =>
      simp [textBytes, utf8Bytes_ne_nil] at h
  | cons c cs ih =>
    intro ds h
    cases ds with
    | nil =>
      simp [textBytes, utf8Bytes_ne_nil] at h
    | cons d ds =>
      obtain ⟨rfl, hrest⟩ := eq_of_utf8Bytes_append h
      rw [ih hrest]

theorem percentBytes_flatMap_percentByte {bytes : List Nat} (h : ∀ b ∈ bytes, b < 0x100)
    (rest : List Char) :
    percentBytes (bytes.flatMap percentByte ++ rest) = bytes ++ percentBytes rest := by
  induction bytes with
  | nil => rfl
  | cons b bytes ih =>
    obtain ⟨hb, hbytes⟩ := List.forall_mem_cons.mp h
    rw [List.flatMap_cons, List.append_assoc, percentBytes_percentByte hb, ih hbytes,
      List.cons_append]

@[simp] theorem percentEncode_append (cs ds : List Char) :
    percentEncode safe (cs ++ ds) = percentEncode safe cs ++ percentEncode safe ds :=
  List.flatMap_append

theorem percentBytes_percentEncode (h : '%' ∉ cs) :
    percentBytes (percentEncode safe cs) = textBytes cs := by
  induction cs with
  | nil => rfl
  | cons c cs ih =>
    obtain ⟨hc, hcs⟩ : '%' ≠ c ∧ '%' ∉ cs := by simpa using h
    have hrest := ih hcs
    change percentBytes ((if safe c then [c] else _) ++ percentEncode safe cs) = _
    split
    · rw [List.singleton_append, percentBytes_cons_of_ne (Ne.symm hc), hrest]
      rfl
    · rw [percentBytes_flatMap_percentByte (utf8Bytes_lt c), hrest]
      rfl

/-- Texts without percent signs are told apart by their encodings. -/
theorem percentEncode_injOn :
    Set.InjOn (percentEncode safe) {cs | '%' ∉ cs} := by
  intro cs hcs ds hds h
  apply textBytes_injective
  rw [← percentBytes_percentEncode hcs, ← percentBytes_percentEncode hds, h]

/-- An encoding has a character only from the text, percent signs and digits apart. -/
theorem not_mem_percentEncode (hc : safe c = true → c ∉ cs) (hpercent : c ≠ '%')
    (hdigit : hexDigit? c = none) : c ∉ percentEncode safe cs := by
  intro hmem
  obtain ⟨d, hd, hmem⟩ := List.mem_flatMap.mp hmem
  split at hmem
  · next hsafe =>
    obtain rfl := List.mem_singleton.mp hmem
    exact hc hsafe hd
  · obtain ⟨b, hb, hmem⟩ := List.mem_flatMap.mp hmem
    have hbyte := utf8Bytes_lt d b hb
    simp only [percentByte, List.mem_cons, List.not_mem_nil, or_false] at hmem
    rcases hmem with rfl | rfl | rfl
    · exact hpercent rfl
    · rw [hexDigit?_upperHexDigit (by omega)] at hdigit
      cases hdigit
    · rw [hexDigit?_upperHexDigit (by omega)] at hdigit
      cases hdigit

end FunnelFlow.Text
