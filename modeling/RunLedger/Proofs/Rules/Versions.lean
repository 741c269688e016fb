import RunLedger.Proofs.Text.Digits
import RunLedger.Proofs.Text.Trimming
import RunLedger.Rules

/-!
# Version numbers in text

A caller gives the number of a version as a text. It is a numeral, an optional sign and digits, with
white space around it at will. The number is read digit by digit within 64 bits, so a numeral may
have any number of zeros in front, and both ends of the range are reached. All other texts are no
version numbers, and the violation names the text as it was given.

## Main results

* `Rules.version_eq_ok_iff`: what is read as a version number.
* `version_is_read_from_numeral`: which texts are version numbers, and which are not.
-/

namespace RunLedger

open Text

theorem inInt64_iff {n : Int} : inInt64 n ↔ -2 ^ 63 ≤ n ∧ n ≤ 2 ^ 63 - 1 := by
  simp [inInt64]

namespace Text

theorem isSpace_of_isDigit {c : Char} (h : c.isDigit) : isSpace c = false := by
  have hcode : 48 ≤ c.toNat ∧ c.toNat ≤ 57 := by
    simpa [Char.isDigit, UInt32.le_iff_toNat_le] using h
  simp only [isSpace]
  grind

/-- There is no white space in a numeral. -/
theorem IsNumeral.isSpace_eq_false {cs : List Char} {n : Int} (h : IsNumeral cs n) :
    ∀ c ∈ cs, isSpace c = false := by
  cases h with
  | unsigned h => exact fun c hc => isSpace_of_isDigit (h.isDigit c hc)
  | plus h | minus h =>
    intro c hc
    rcases List.mem_cons.mp hc with rfl | hc
    · rfl
    · exact isSpace_of_isDigit (h.isDigit c hc)

end Text

namespace Rules

theorem version_eq_ok_iff {input : String} {n : Int} :
    version input = .ok n ↔ IsNumeral (trim input.toList) n ∧ inInt64 n := by
  rw [← readInt?_eq_some_iff, ← Option.filter_eq_some_iff, ← readInt64?_eq_filter, version]
  cases readInt64? (trim input.toList) <;> simp

theorem version_cases (input : String) :
    (∃ n, version input = .ok n) ∨ version input = .error (.invalidVersion input) := by
  rw [version]
  cases readInt64? (trim input.toList) with
  | none => exact .inr rfl
  | some n => exact .inl ⟨n, rfl⟩

end Rules

/-- **A version number is read from its numeral.** A text is read as `n` if without the white space
around it the text is a numeral of `n`, and `n` has 64 bits. It violates the rule if no such integer
is to be found. In particular every integer of 64 bits is read from its usual spelling, with any
zeros in front of its digits and any white space around it. -/
theorem version_is_read_from_numeral :
    (∀ (input : String) (n : Int), Rules.version input = .ok n ↔
      (-2 ^ 63 ≤ n ∧ n ≤ 2 ^ 63 - 1) ∧ ∃ core, IsCore core input.toList ∧ IsNumeral core n) ∧
    (∀ input : String, Rules.version input = .error (.invalidVersion input) ↔
      ¬ ∃ n : Int, (-2 ^ 63 ≤ n ∧ n ≤ 2 ^ 63 - 1) ∧
        ∃ core, IsCore core input.toList ∧ IsNumeral core n) ∧
    ∀ (n : Int) (zeros : Nat) (before after : List Char), -2 ^ 63 ≤ n → n ≤ 2 ^ 63 - 1 →
      (∀ c ∈ before, isSpace c) → (∀ c ∈ after, isSpace c) →
      Rules.version (String.ofList (before ++ padded zeros n ++ after)) = .ok n := by
  have hread (input : String) (n : Int) : Rules.version input = .ok n ↔
      (-2 ^ 63 ≤ n ∧ n ≤ 2 ^ 63 - 1) ∧ ∃ core, IsCore core input.toList ∧ IsNumeral core n := by
    simp only [Rules.version_eq_ok_iff, inInt64_iff, isCore_iff, exists_eq_left']
    exact and_comm
  refine ⟨hread, fun input => ?_, fun n zeros before after hlow hhigh hbefore hafter => ?_⟩
  · simp only [← hread]
    constructor
    · rintro h ⟨n, hn⟩
      rw [h] at hn
      cases hn
    · exact (Rules.version_cases input).resolve_left
  · refine (hread _ n).mpr ⟨⟨hlow, hhigh⟩, padded zeros n, ?_, isNumeral_padded zeros n⟩
    rw [String.toList_ofList]
    exact isCore_of_forall hbefore hafter (isNumeral_padded zeros n).isSpace_eq_false

/-- The least number is read with zeros and white space around it. The number before it and a
numeral in other digits are not. -/
theorem version_of_least_is_read :
    Rules.version "\u3000-00009223372036854775808\n" = .ok (-2 ^ 63) ∧
      Rules.version "-9223372036854775809" = .error (.invalidVersion "-9223372036854775809") ∧
      Rules.version "٣" = .error (.invalidVersion "٣") := by
  have hread := version_is_read_from_numeral.2.2 (-2 ^ 63) 4 ['\u3000'] ['\n'] (by decide)
    (by decide) (List.forall_mem_singleton.mpr rfl) (List.forall_mem_singleton.mpr rfl)
  have htext : String.ofList (['\u3000'] ++ padded 4 (-2 ^ 63) ++ ['\n']) =
      "\u3000-00009223372036854775808\n" := by decide +kernel
  exact ⟨htext ▸ hread, by rfl, by rfl⟩

end RunLedger
