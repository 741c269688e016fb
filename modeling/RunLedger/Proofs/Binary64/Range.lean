import Mathlib.Algebra.Order.Field.Power
import Mathlib.Data.Rat.Cast.Order
import Mathlib.Tactic.FieldSimp
import Mathlib.Tactic.Linarith
import Mathlib.Tactic.Positivity
import Mathlib.Tactic.Ring
import RunLedger.Binary64.Rounding

/-!
# The range of rounded fractions

How large the number nearest to a fraction can be is told by a power of two: the number nearest to a
fraction of at most `2 ^ k` has a magnitude that stands for at most `2 ^ (k + 2)`, and the number
nearest to a fraction of at least one stands for at least one. A rounded division by the number
nearest to a power of ten therefore never leads from far below the largest finite number to
infinity.

## Main definitions

* `Binary64.IsFinite`: neither NaN nor infinite.
* `Binary64.value`: the rational number that a finite magnitude stands for.

## Main results

* `Binary64.exists_order`: the exponent of the last bit by the binary order of the fraction.
* `Binary64.magnitudeOfRatio_le_of_le`, `Binary64.value_le_of_le`: upper bounds.
* `Binary64.le_magnitudeOfRatio_of_le`, `Binary64.one_le_value`: lower bounds.
* `Binary64.scaleDown_le`: a division by a power of ten stays in range.
-/

namespace RunLedger.Binary64

/-- Neither NaN nor infinite. -/
def IsFinite (x : Binary64) : Prop := x.magnitude < infinite

/-- The rational number that a finite magnitude stands for. -/
def value (magnitude : Nat) : ℚ := (ratio magnitude).1 / (ratio magnitude).2

variable {n d : Nat}

/-- A fraction whose two parts are shifted to have the last bit at exponent `e`. -/
theorem shifted_div (n d : Nat) (e : Int) :
    ((n * Nat.pow 2 (-e).toNat : Nat) : ℚ) / (d * Nat.pow 2 e.toNat : Nat)
      = (n : ℚ) / d / 2 ^ e := by
  have hsplit : (2 : ℚ) ^ e = 2 ^ e.toNat / 2 ^ (-e).toNat := by
    rw [← zpow_natCast, ← zpow_natCast, ← zpow_sub₀ (by norm_num)]
    congr 1
    omega
  rw [hsplit]
  push_cast [Nat.pow_eq]
  field_simp

theorem two_pow_log2_le (hn : 0 < n) : (2 : ℚ) ^ (n.log2 : Int) ≤ n := by
  have hle : 2 ^ n.log2 ≤ n := Nat.log2_self_le hn.ne'
  rw [zpow_natCast]
  exact_mod_cast hle

theorem lt_two_pow_log2 (n : Nat) : (n : ℚ) < 2 ^ ((n.log2 : Int) + 1) := by
  have hlt : n < 2 ^ (n.log2 + 1) := Nat.lt_log2_self
  rw [← Nat.cast_succ, zpow_natCast]
  exact_mod_cast hlt

/-- The exponent of the last bit by the binary order of a positive fraction. -/
theorem exists_order (hn : 0 < n) (hd : 0 < d) :
    ∃ top : Int, lastBitExponent n d = max (top - 52) (-1074)
      ∧ (2 : ℚ) ^ top ≤ (n : ℚ) / d ∧ (n : ℚ) / d < 2 ^ (top + 1) := by
  have hnq : (0 : ℚ) < n := by exact_mod_cast hn
  have hdq : (0 : ℚ) < d := by exact_mod_cast hd
  set l : Int := (n.log2 : Int) - d.log2 with hl
  have hcond : d * Nat.pow 2 l.toNat ≤ n * Nat.pow 2 (-l).toNat ↔ (2 : ℚ) ^ l ≤ (n : ℚ) / d := by
    have hpos : (0 : ℚ) < (d * Nat.pow 2 l.toNat : Nat) :=
      Nat.cast_pos.2 (Nat.mul_pos hd (Nat.pow_pos (by decide)))
    rw [← one_le_div₀ (zpow_pos (by norm_num) l), ← shifted_div, one_le_div₀ hpos, Nat.cast_le]
  have habove : (n : ℚ) / d < 2 ^ (l + 1) := by
    rw [div_lt_iff₀ hdq]
    calc (n : ℚ) < 2 ^ ((n.log2 : Int) + 1) := lt_two_pow_log2 n
      _ = 2 ^ (l + 1) * 2 ^ (d.log2 : Int) := by
        rw [← zpow_add₀ (by norm_num)]
        congr 1
        omega
      _ ≤ 2 ^ (l + 1) * d := by
        gcongr
        exact two_pow_log2_le hd
  have hbelow : (2 : ℚ) ^ (l - 1) ≤ (n : ℚ) / d := by
    rw [le_div_iff₀ hdq]
    calc (2 : ℚ) ^ (l - 1) * d ≤ 2 ^ (l - 1) * 2 ^ ((d.log2 : Int) + 1) := by
          gcongr
          exact (lt_two_pow_log2 d).le
      _ = 2 ^ (n.log2 : Int) := by
        rw [← zpow_add₀ (by norm_num)]
        congr 1
        omega
      _ ≤ n := two_pow_log2_le hn
  by_cases h : d * Nat.pow 2 l.toNat ≤ n * Nat.pow 2 (-l).toNat
  · exact ⟨l, by simp only [lastBitExponent, ← hl, h, if_true], hcond.1 h, habove⟩
  · refine ⟨l - 1, by simp only [lastBitExponent, ← hl, h, if_false], hbelow, ?_⟩
    rw [Int.sub_add_cancel]
    exact lt_of_not_ge fun hge => h (hcond.2 hge)

theorem roundDiv_le {m : Nat} (hd : 0 < d) (h : (n : ℚ) / d ≤ m) : roundDiv n d ≤ m := by
  have hle : n ≤ m * d := by
    rw [div_le_iff₀ (by exact_mod_cast hd)] at h
    exact_mod_cast h
  have hmod := Nat.div_add_mod n d
  have hquotient : n / d ≤ m := Nat.div_le_of_le_mul (by rwa [Nat.mul_comm] at hle)
  have hnext : n % d ≠ 0 → n / d + 1 ≤ m := by
    intro hne
    by_contra hlt
    obtain rfl : n / d = m := by omega
    rw [Nat.mul_comm] at hle
    omega
  unfold roundDiv
  simp only
  split
  · exact hquotient
  split
  · exact hnext (by omega)
  split
  · exact hquotient
  · exact hnext (by omega)

theorem le_roundDiv {m : Nat} (hd : 0 < d) (h : (m : ℚ) ≤ (n : ℚ) / d) : m ≤ roundDiv n d := by
  have hle : m * d ≤ n := by
    rw [le_div_iff₀ (by exact_mod_cast hd)] at h
    exact_mod_cast h
  have hquotient : m ≤ n / d := (Nat.le_div_iff_mul_le hd).2 hle
  unfold roundDiv
  simp only
  split
  · exact hquotient
  split
  · omega
  split <;> omega

theorem magnitudeOfRatio_le_of_le (hd : 0 < d) {k : Nat} (h : (n : ℚ) / d ≤ 2 ^ k) :
    magnitudeOfRatio n d ≤ (k + 1024) * 0x10000000000000 := by
  unfold magnitudeOfRatio
  split
  · exact Nat.zero_le _
  · rename_i hn
    obtain ⟨top, he, hlow, hhigh⟩ := exists_order (Nat.pos_of_ne_zero hn) hd
    have htop : top ≤ k := by
      have hpow : (2 : ℚ) ^ top ≤ 2 ^ (k : Int) := by
        rw [zpow_natCast]
        exact hlow.trans h
      exact (zpow_le_zpow_iff_right₀ (by norm_num)).1 hpow
    set e := lastBitExponent n d with hdef
    have hround : roundDiv (n * Nat.pow 2 (-e).toNat) (d * Nat.pow 2 e.toNat) ≤ 2 ^ 53 := by
      refine roundDiv_le (Nat.mul_pos hd (Nat.pow_pos (by decide))) ?_
      rw [shifted_div, div_le_iff₀ (by positivity)]
      calc (n : ℚ) / d ≤ 2 ^ (top + 1) := hhigh.le
        _ ≤ 2 ^ (53 + e) := zpow_le_zpow_right₀ (by norm_num) (by omega)
        _ = ((2 ^ 53 : Nat) : ℚ) * 2 ^ e := by rw [zpow_add₀ (by norm_num)]; norm_num
    simp only
    refine (Nat.min_le_right _ _).trans ?_
    omega

/-- What is at least one is rounded to at least one. -/
theorem le_magnitudeOfRatio_of_le (hd : 0 < d) (h : d ≤ n) :
    1023 * 0x10000000000000 ≤ magnitudeOfRatio n d := by
  have hn : 0 < n := hd.trans_le h
  have hone : (1 : ℚ) ≤ (n : ℚ) / d := by
    rw [one_le_div₀ (by exact_mod_cast hd)]
    exact_mod_cast h
  obtain ⟨top, he, hlow, hhigh⟩ := exists_order hn hd
  have htop : 0 ≤ top := by
    have hpow : (2 : ℚ) ^ (0 : Int) < 2 ^ (top + 1) := by
      rw [zpow_zero]
      exact hone.trans_lt hhigh
    have := (zpow_lt_zpow_iff_right₀ (by norm_num : (1 : ℚ) < 2)).1 hpow
    omega
  set e := lastBitExponent n d with hdef
  have hround : 2 ^ 52 ≤ roundDiv (n * Nat.pow 2 (-e).toNat) (d * Nat.pow 2 e.toNat) := by
    refine le_roundDiv (Nat.mul_pos hd (Nat.pow_pos (by decide))) ?_
    rw [shifted_div, le_div_iff₀ (by positivity)]
    calc ((2 ^ 52 : Nat) : ℚ) * 2 ^ e = 2 ^ (52 + e) := by
          rw [zpow_add₀ (by norm_num)]; norm_num
      _ = 2 ^ top := by congr 1; omega
      _ ≤ (n : ℚ) / d := hlow
  simp only [magnitudeOfRatio, hn.ne', if_false, ← hdef]
  refine Nat.le_min.2 ⟨by decide, ?_⟩
  omega

theorem value_eq (magnitude : Nat) :
    value magnitude = (parts magnitude).1 * 2 ^ (parts magnitude).2 := by
  have h := shifted_div (parts magnitude).1 1 (-(parts magnitude).2)
  rw [Nat.one_mul, neg_neg, zpow_neg, div_inv_eq_mul, Nat.cast_one, div_one] at h
  exact h

theorem value_le_of_le {magnitude k : Nat} (h : magnitude ≤ (k + 1024) * 0x10000000000000) :
    value magnitude ≤ 2 ^ (k + 2) := by
  have hparts : (parts magnitude).1 ≤ 2 ^ 53 ∧ (parts magnitude).2 ≤ (k : Int) - 51 := by
    simp only [parts]
    split <;> constructor <;> simp only <;> omega
  rw [value_eq]
  calc ((parts magnitude).1 : ℚ) * 2 ^ (parts magnitude).2
      ≤ ((2 ^ 53 : Nat) : ℚ) * 2 ^ ((k : Int) - 51) := by
        gcongr
        · exact hparts.1
        · norm_num
        · exact hparts.2
    _ = 2 ^ ((53 : Int) + (k - 51)) := by rw [zpow_add₀ (by norm_num)]; norm_num
    _ = 2 ^ (k + 2) := by
        rw [← zpow_natCast]
        congr 1
        push_cast
        omega

theorem one_le_value {magnitude : Nat} (h : 1023 * 0x10000000000000 ≤ magnitude) :
    1 ≤ value magnitude := by
  have hparts : 2 ^ 52 ≤ (parts magnitude).1 ∧ -52 ≤ (parts magnitude).2 := by
    simp only [parts]
    split <;> constructor <;> simp only <;> omega
  rw [value_eq]
  calc (1 : ℚ) = ((2 ^ 52 : Nat) : ℚ) * 2 ^ (-52 : Int) := by norm_num
    _ ≤ (parts magnitude).1 * 2 ^ (parts magnitude).2 := by
        gcongr
        · exact hparts.1
        · norm_num
        · exact hparts.2

theorem ratio_pos (magnitude : Nat) : 0 < (ratio magnitude).2 := Nat.pow_pos (by decide)

/-- A division by the number nearest to a power of ten does not enlarge a number, up to rounding. -/
theorem scaleDown_le {magnitude k : Nat} (h : magnitude ≤ (k + 1024) * 0x10000000000000)
    (places : Nat) : scaleDown magnitude places ≤ (k + 2 + 1024) * 0x10000000000000 := by
  have hpower : 1 ≤ value (powerOfTen places) :=
    one_le_value (le_magnitudeOfRatio_of_le (by decide) (Nat.pow_pos (by decide)))
  have hpos : 0 < (ratio (powerOfTen places)).1 := by
    by_contra hzero
    have : (ratio (powerOfTen places)).1 = 0 := by omega
    rw [value, this] at hpower
    norm_num at hpower
  refine magnitudeOfRatio_le_of_le (Nat.mul_pos (ratio_pos magnitude) hpos) ?_
  calc (((ratio magnitude).1 * (ratio (powerOfTen places)).2 : Nat) : ℚ)
        / ((ratio magnitude).2 * (ratio (powerOfTen places)).1 : Nat)
      = value magnitude / value (powerOfTen places) := by
        push_cast [value]
        rw [div_div_div_eq]
    _ ≤ value magnitude := div_le_self (by rw [value]; positivity) hpower
    _ ≤ 2 ^ (k + 2) := value_le_of_le h

end RunLedger.Binary64
