import Mathlib.Data.List.DropRight
import RunLedger.Binary64.Shortest
import RunLedger.Proofs.Text.Digits

/-!
# The digits of the shortest decimal

The shortest decimal of a positive finite number has a positive coefficient: no point of a grid that
reads back as the number is zero, and the last grid, of seventeen digits, is so fine that the number
lies above its first point. Its digits without the trailing zeros are therefore digits again, and
the first of them is not zero.

## Main results

* `Binary64.mul_pow_le_of_decimalPlaces`: a fraction is at least the power of ten that its number of
  places tells.
* `Binary64.shortest_pos`: the shortest decimal has a positive coefficient.
* `NumberLayout.digits_trimmed`, `NumberLayout.head?_trimmed`: what is left of digits without their
  trailing zeros.
-/

namespace RunLedger

namespace Binary64

/-- A positive fraction `n / d` of `k` places is at least every power of ten below `10 ^ k`. -/
theorem mul_pow_le_of_decimalPlaces {n d : Nat} (hn : 0 < n) (hd : 0 < d) {g : Int}
    (hg : g < decimalPlaces n d) :
    d * Nat.pow 10 g.toNat ≤ n * Nat.pow 10 (-g).toNat := by
  simp only [Nat.pow_eq]
  unfold decimalPlaces at hg
  split at hg
  · rename_i hle
    set k := (Nat.toDigits 10 (n / d)).length with hk
    have hquotient : 10 ^ (k - 1) ≤ n / d := by
      obtain hone | htwo := Nat.lt_or_ge 1 k
      · by_contra hlt
        have hlen := (Nat.length_toDigits_le_iff (b := 10) (by decide) (by omega : 0 < k - 1)).2
          (Nat.lt_of_not_le hlt)
        omega
      · rw [show k - 1 = 0 by omega, Nat.pow_zero]
        exact Nat.div_pos hle hd
    calc d * 10 ^ g.toNat
        ≤ d * 10 ^ (k - 1) :=
          Nat.mul_le_mul_left d (Nat.pow_le_pow_right (by decide) (by omega))
      _ ≤ d * (n / d) := Nat.mul_le_mul_left d hquotient
      _ ≤ n := Nat.mul_div_le n d
      _ ≤ n * 10 ^ (-g).toNat := Nat.le_mul_of_pos_right n (Nat.pow_pos (by decide))
  · set k := (Nat.toDigits 10 ((d - 1) / n)).length with hk
    have hpos : 0 < k := Nat.length_toDigits_pos
    have hquotient : (d - 1) / n < 10 ^ k :=
      (Nat.length_toDigits_le_iff (b := 10) (by decide) hpos).1 le_rfl
    have hlt : d - 1 < 10 ^ k * n := (Nat.div_lt_iff_lt_mul hn).1 hquotient
    calc d * 10 ^ g.toNat
        = d := by rw [show g.toNat = 0 by omega, Nat.pow_zero, Nat.mul_one]
      _ ≤ n * 10 ^ k := by rw [Nat.mul_comm]; omega
      _ ≤ n * 10 ^ (-g).toNat :=
          Nat.mul_le_mul_left n (Nat.pow_le_pow_right (by decide) (by omega))

/-- What makes a span that of a positive number. -/
structure Span.Positive (s : Span) : Prop where
  centre : 0 < s.centre
  low : 0 < s.low
  unit : 0 < s.unit
  unitBelow : 0 < s.unitBelow

theorem parts_pos {magnitude : Nat} (h : 0 < magnitude) : 0 < (parts magnitude).1 := by
  simp only [parts]
  split <;> simp only <;> omega

theorem span_positive {magnitude : Nat} (h : 0 < magnitude) : (span magnitude).Positive where
  centre := Nat.mul_pos (by decide) (parts_pos h)
  low := by
    have hc := parts_pos h
    simp only [span]
    split <;> omega
  unit := Nat.pow_pos (by decide)
  unitBelow := Nat.pow_pos (by decide)

/-- Zero lies outside the rounding interval of a positive number. -/
theorem Span.Positive.onGrid?_pos {s : Span} (h : s.Positive) {g : Int} {d : Nat}
    (hd : s.onGrid? g = some d) : 0 < d := by
  have hscale : 0 < s.low * (s.unit * Nat.pow 10 (-g).toNat) :=
    Nat.mul_pos h.low (Nat.mul_pos h.unit (Nat.pow_pos (by decide)))
  simp only [onGrid?] at hd
  generalize s.low * (s.unit * Nat.pow 10 (-g).toNat) = low at hscale hd
  generalize s.high * (s.unit * Nat.pow 10 (-g).toNat) = high at hd
  generalize s.unitBelow * Nat.pow 10 g.toNat = step at hd
  have hpos : ∀ e, (if s.closed then low ≤ e * step && e * step ≤ high
      else low < e * step && e * step < high : Bool) = true → 0 < e := by
    rintro e he
    by_contra hzero
    obtain rfl : e = 0 := by omega
    split at he <;>
      · rw [Nat.zero_mul, Bool.and_eq_true, decide_eq_true_eq] at he
        omega
  split at hd
  · cases hd
  · rename_i hbelow _
    cases hd
    exact hpos _ hbelow
  · cases hd
    exact Nat.succ_pos _
  · rename_i hbelow _
    have := hpos _ hbelow
    split at hd
    · cases hd; exact this
    split at hd
    · cases hd; exact Nat.succ_pos _
    split at hd <;> cases hd
    · exact this
    · exact Nat.succ_pos _

theorem Span.Positive.search_pos {s : Span} (h : s.Positive) (left : Nat) :
    0 < (s.search (decimalPlaces (s.centre * s.unit) s.unitBelow) left).1 := by
  induction left with
  | zero =>
    simp only [search]
    refine Nat.div_pos ?_ (Nat.mul_pos h.unitBelow (Nat.pow_pos (by decide)))
    rw [← Nat.mul_assoc]
    exact mul_pow_le_of_decimalPlaces (Nat.mul_pos h.centre h.unit) h.unitBelow (by omega)
  | succ left ih =>
    simp only [search]
    split
    · rename_i d hd
      exact h.onGrid?_pos hd
    · exact ih

/-- The shortest decimal of a positive finite number has a positive coefficient. -/
theorem shortest_pos {magnitude : Nat} (h : 0 < magnitude) : 0 < (shortest magnitude).1 :=
  (span_positive h).search_pos 17

end Binary64

namespace NumberLayout

open Text (Digits)

theorem trimmed_initial (ds : List Char) :
    (ds.reverse.dropWhile (· == '0')).reverse <+: ds :=
  List.rdropWhile_prefix (· == '0') ds

/-- Digits without trailing zeros are digits, if the first was not zero. -/
theorem digits_trimmed {ds : List Char} (h : Digits ds) (hhead : ds.head? ≠ some '0') :
    Digits (ds.reverse.dropWhile (· == '0')).reverse := by
  refine h.of_subset (fun hnil => ?_) (trimmed_initial ds).subset
  obtain ⟨d, more, rfl, -⟩ := h.exists_cons
  have hall := List.rdropWhile_eq_nil_iff.1 hnil d (by simp)
  exact hhead (by simpa using hall)

theorem head?_trimmed {ds : List Char} (h : Digits ds) (hhead : ds.head? ≠ some '0') :
    (ds.reverse.dropWhile (· == '0')).reverse.head? ≠ some '0' := by
  obtain ⟨d, more, hds, -⟩ := (digits_trimmed h hhead).exists_cons
  obtain ⟨rest, hrest⟩ := trimmed_initial ds
  rw [hds] at hrest ⊢
  rw [← hrest] at hhead
  exact hhead

end NumberLayout

end RunLedger
