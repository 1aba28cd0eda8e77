import Mathlib.Tactic.Linarith
import FunnelFlow.Number.Double

/-!
Which integers a finite double stands for. The largest finite double is `2 ^ 1024 - 2 ^ 971`; an
integer still rounds to it until it is half a last place larger, where the even neighbour is
`2 ^ 1024`.
-/

namespace FunnelFlow.Double

variable {num den m q r : Nat} {negative : Bool}

/-- The least size of an integer that no finite double is nearest to. -/
def overflowSize : Nat := 2 ^ 1024 - 2 ^ 970

theorem nearest_eq (hr : r < den) :
    nearest (den * q + r) den =
      if 2 * r < den then q else if den < 2 * r then q + 1 else q + q % 2 := by
  have hden : 0 < den := Nat.zero_lt_of_lt hr
  rw [nearest, Nat.mul_add_div hden, Nat.div_eq_of_lt hr, Nat.mul_add_mod, Nat.mod_eq_of_lt hr,
    Nat.add_zero]

theorem le_nearest_iff (hden : 0 < den) (hm : m % 2 = 0) :
    m ≤ nearest num den ↔ 2 * (m * den) ≤ 2 * num + den := by
  obtain ⟨q, r, hr, rfl⟩ : ∃ q r, r < den ∧ num = den * q + r :=
    ⟨num / den, num % den, Nat.mod_lt _ hden, (Nat.div_add_mod num den).symm⟩
  rw [nearest_eq hr]
  rcases Nat.lt_trichotomy m (q + 1) with hlt | rfl | hgt
  · have hmul : m * den ≤ q * den := Nat.mul_le_mul_right den (Nat.le_of_lt_succ hlt)
    refine iff_of_true (by split_ifs <;> omega) (by linarith)
  · have hhalf : 2 * ((q + 1) * den) ≤ 2 * (den * q + r) + den ↔ den ≤ 2 * r := by
      constructor <;> intro h <;> linarith
    rw [hhalf]
    split_ifs <;> omega
  · have hmul : (q + 2) * den ≤ m * den := Nat.mul_le_mul_right den hgt
    refine iff_of_false (by split_ifs <;> omega) (by linarith)

theorem nearest_le (hden : 0 < den) (hnum : num ≤ m * den) : nearest num den ≤ m := by
  obtain ⟨q, r, hr, rfl⟩ : ∃ q r, r < den ∧ num = den * q + r :=
    ⟨num / den, num % den, Nat.mod_lt _ hden, (Nat.div_add_mod num den).symm⟩
  rw [nearest_eq hr]
  have hq : q ≤ m := Nat.le_of_mul_le_mul_right (by linarith : q * den ≤ m * den) hden
  rcases Nat.eq_or_lt_of_le hq with rfl | hlt
  · have hr : r = 0 := by linarith
    rw [hr, if_pos hden]
  · split_ifs <;> omega

theorem scaleRatio_neg (num den k : Nat) : scaleRatio num den (-k) = (num, den * 2 ^ k) := by
  simp [scaleRatio]

def lastPlace (num den : Nat) : Int := max (floorLog2 num den - (precision - 1)) minExponent

/-- The multiple of its last place that a ratio is rounded to. -/
def rounded (num den : Nat) : Nat :=
  nearest (scaleRatio num den (-lastPlace num den)).1 (scaleRatio num den (-lastPlace num den)).2

theorem isFinite_ofRatio_iff (hnum : num ≠ 0) :
    (ofRatio negative num den).isFinite = true ↔
      if rounded num den = 2 ^ precision then lastPlace num den < maxExponent
      else lastPlace num den ≤ maxExponent := by
  simp only [ofRatio, if_neg hnum]
  rw [← lastPlace, ← rounded, Nat.pow_eq]
  split <;> dsimp only <;> split <;> simp only [isFinite] <;> simp <;> omega

theorem floorLog2_one (hnum : num ≠ 0) : floorLog2 num 1 = num.log2 := by
  have hone : Nat.log2 1 = 0 := rfl
  have hle : 2 ^ num.log2 ≤ num := Nat.log2_self_le hnum
  simp [floorLog2, scaleRatio, hone, hle]

theorem lastPlace_one (hnum : num ≠ 0) : lastPlace num 1 = num.log2 - 52 := by
  rw [lastPlace, floorLog2_one hnum]
  simp only [precision, minExponent]
  omega

/-- At the largest last place, only half of it is missing from `2 ^ 1024`. -/
theorem rounded_one_eq_iff (hlog : num.log2 = 1023) :
    rounded num 1 = 2 ^ precision ↔ overflowSize ≤ num := by
  have hnum : num ≠ 0 := by
    rintro rfl
    cases hlog
  have hplace : lastPlace num 1 = (971 : Nat) := by
    rw [lastPlace_one hnum, hlog]
    rfl
  have hrounded : rounded num 1 = nearest num (2 ^ 971) := by
    rw [rounded, hplace, scaleRatio_neg, Nat.one_mul]
  have hsum : num.log2 + 1 = precision + 971 := by
    rw [hlog]
    rfl
  have hupper : num ≤ 2 ^ precision * 2 ^ 971 := by
    rw [← Nat.pow_add, ← hsum]
    exact Nat.lt_log2_self.le
  have hle : rounded num 1 ≤ 2 ^ precision := by
    rw [hrounded]
    exact nearest_le (pow_pos Nat.two_pos 971) hupper
  have hhalf : 2 * (2 ^ precision * 2 ^ 971) = 2 * overflowSize + 2 ^ 971 := by decide +kernel
  rw [← hle.ge_iff_eq, hrounded, le_nearest_iff (pow_pos Nat.two_pos 971) rfl, hhalf]
  omega

theorem isFinite_ofRatio_one_iff :
    (ofRatio negative num 1).isFinite = true ↔ num < overflowSize := by
  by_cases hnum : num = 0
  · subst hnum
    exact iff_of_true rfl (by decide +kernel)
  rw [isFinite_ofRatio_iff hnum, lastPlace_one hnum, maxExponent]
  have hlower : 2 ^ num.log2 ≤ num := Nat.log2_self_le hnum
  have hupper : num < 2 ^ (num.log2 + 1) := Nat.lt_log2_self
  rcases Nat.lt_trichotomy num.log2 1023 with hlt | hlog | hgt
  · have hpow : 2 ^ (num.log2 + 1) ≤ 2 ^ 1023 := pow_le_pow_right₀ (by decide) (by omega)
    have hsize : 2 ^ 1023 ≤ overflowSize := by decide +kernel
    refine iff_of_true ?_ (hupper.trans_le (hpow.trans hsize))
    split_ifs <;> omega
  · have htop := rounded_one_eq_iff hlog
    rw [hlog]
    split_ifs <;> omega
  · have hpow : 2 ^ 1024 ≤ 2 ^ num.log2 := pow_le_pow_right₀ (by decide) hgt
    have hsize : overflowSize ≤ 2 ^ 1024 := Nat.sub_le _ _
    refine iff_of_false ?_ ((hsize.trans hpow).trans hlower).not_gt
    split_ifs <;> omega

theorem ofInt?_eq_none_iff (n : Int) : ofInt? n = none ↔ overflowSize ≤ n.natAbs := by
  rw [← Nat.not_lt, ← isFinite_ofRatio_one_iff, ofInt?]
  cases ofRatio (n < 0) n.natAbs 1 <;> simp [isFinite]

end FunnelFlow.Double
