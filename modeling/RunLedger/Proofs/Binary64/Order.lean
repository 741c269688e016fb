import Mathlib.Data.Int.ConditionallyCompleteOrder
import Mathlib.Order.Monotone.Odd
import RunLedger.Proofs.Binary64.Range

/-!
# The order of the numbers

A larger magnitude stands for a larger number: at a power of two the last bit doubles its weight,
and the significand starts again at half of what it would have become. With the signs the order of
the ranks is therefore the order of the rational numbers that are stood for. The two zeros have one
rank and stand for one number.

## Main definitions

* `Binary64.number`: the rational number that a finite number stands for.
* `Binary64.ofRank`: the rational number of a rank.

## Main results

* `Binary64.value_strictMono`: a larger magnitude stands for a larger number.
* `Binary64.number_lt_number_iff`, `Binary64.number_inj`: numbers compare as their ranks do.
* `Reading.isFinite_ofValue`: what is stored is finite.
-/

namespace RunLedger

namespace Binary64

/-- The rational number that a finite number stands for. -/
def number (x : Binary64) : ℚ := if x.negative then -value x.magnitude else value x.magnitude

/-- The next magnitude has a significand larger by one, or half of that at twice the weight. -/
theorem parts_succ (m : Nat) :
    parts (m + 1) = ((parts m).1 + 1, (parts m).2) ∨
      (parts m).1 + 1 = 2 * 2 ^ 52 ∧ parts (m + 1) = (2 ^ 52, (parts m).2 + 1) := by
  simp only [parts]
  split_ifs <;> simp only [Prod.mk.injEq, and_true] <;> omega

theorem value_succ (m : Nat) : value (m + 1) = value m + 2 ^ (parts m).2 := by
  rw [value_eq, value_eq]
  rcases parts_succ m with hsame | ⟨hfull, hnext⟩
  · rw [hsame]
    push_cast
    ring
  · have hfull : ((parts m).1 : ℚ) + 1 = 2 * 2 ^ 52 := by exact_mod_cast hfull
    rw [hnext, zpow_add_one₀ (by norm_num), ← add_one_mul, hfull]
    push_cast
    ring

/-- **A larger magnitude stands for a larger number.** -/
theorem value_strictMono : StrictMono value :=
  strictMono_nat_of_lt_succ fun m => by
    rw [value_succ]
    exact lt_add_of_pos_right _ (zpow_pos (by norm_num) _)

theorem value_zero : value 0 = 0 := by
  rw [value_eq]
  simp [parts]

/-- The rational number of a rank. -/
def ofRank (r : ℤ) : ℚ := r.sign * value r.natAbs

theorem ofRank_natCast (m : ℕ) : ofRank m = value m := by
  rcases Nat.eq_zero_or_pos m with rfl | hm
  · simp [ofRank, value_zero]
  · simp [ofRank, Int.sign_natCast_of_ne_zero hm.ne']

theorem ofRank_neg (r : ℤ) : ofRank (-r) = -ofRank r := by
  simp [ofRank]

theorem ofRank_strictMono : StrictMono ofRank := by
  refine strictMono_of_odd_strictMonoOn_nonneg ofRank_neg fun r hr s hs hlt => ?_
  obtain ⟨a, rfl⟩ := Int.eq_ofNat_of_zero_le hr
  obtain ⟨b, rfl⟩ := Int.eq_ofNat_of_zero_le hs
  rw [ofRank_natCast, ofRank_natCast]
  exact value_strictMono (by exact_mod_cast hlt)

theorem number_eq_ofRank (x : Binary64) : x.number = ofRank x.rank := by
  rw [number, rank]
  split_ifs
  · rw [ofRank_neg, ofRank_natCast]
  · rw [ofRank_natCast]

/-- **Numbers compare as their ranks do.** -/
theorem number_lt_number_iff {x y : Binary64} : x.number < y.number ↔ x.rank < y.rank := by
  rw [number_eq_ofRank, number_eq_ofRank, ofRank_strictMono.lt_iff_lt]

theorem number_inj {x y : Binary64} : x.number = y.number ↔ x.rank = y.rank := by
  rw [number_eq_ofRank, number_eq_ofRank, ofRank_strictMono.injective.eq_iff]

end Binary64

/-- What is stored is finite. -/
theorem Reading.isFinite_ofValue (x : Binary64) : (ofValue x).value.IsFinite := by
  have hlargest : Binary64.largest < Binary64.infinite := by decide
  rw [ofValue]
  split_ifs with hnan hinfinite
  · exact Nat.zero_lt_of_lt hlargest
  · exact hlargest
  · simp only [Binary64.isNaN, Binary64.isInfinite, decide_eq_true_eq, beq_iff_eq] at hnan hinfinite
    exact lt_of_le_of_ne (not_lt.mp hnan) hinfinite

end RunLedger
