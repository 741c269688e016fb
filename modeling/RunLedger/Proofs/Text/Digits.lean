import Mathlib.Data.Nat.Digits.Defs
import RunLedger.Text.Digits

/-!
# Digits read back

The decimal digits of a natural number denote that number again, there is at least one of them, and
the first one is not zero unless the number is. The same follows for integers in their usual
spelling, a minus before the digits of a negative one. An integer of 64 bits is read digit by digit
and nothing is read where a step would leave the range. Since every further digit only leads farther
from zero, this comes to reading the whole integer and looking at its range then.

## Main definitions

* `Text.Digits`: one or more decimal digits.
* `Text.IsNumeral`: an optional sign and digits, with the integer that they denote.
* `Text.padded`: the usual spelling of an integer, with zeros in front of its digits.
* `Text.signed`: an integer by its sign and its absolute value.

## Main results

* `Text.natOfDigits_toDigits`, `Text.readNat?_toDigits`: a natural number is read from its digits.
* `Text.readInt?_eq_some_iff`: an integer is read from its numerals.
* `Text.foldlM_appendDigit?_signed`, `Text.readInt64?_eq_filter`: reading within 64 bits.
* `Text.readInt64?_toString`: an integer of 64 bits is read from its usual spelling.
* `Text.head?_toDigits_ne_zero`: the digits of a positive number do not begin with zero.
-/

namespace RunLedger.Text

/-- One or more decimal digits. -/
structure Digits (ds : List Char) : Prop where
  /-- There is one. -/
  ne_nil : ds ≠ []
  /-- There is nothing else. -/
  isDigit : ∀ c ∈ ds, c.isDigit

namespace Digits

variable {ds es : List Char}

theorem append (h : Digits ds) (hes : ∀ c ∈ es, c.isDigit) : Digits (ds ++ es) where
  ne_nil := by simp [h.ne_nil]
  isDigit c hc := (List.mem_append.1 hc).elim (h.isDigit c) (hes c)

theorem of_subset (h : Digits ds) (hne : es ≠ []) (hsub : es ⊆ ds) : Digits es where
  ne_nil := hne
  isDigit c hc := h.isDigit c (hsub hc)

/-- The first of several digits, and the rest. -/
theorem exists_cons (h : Digits ds) :
    ∃ d rest, ds = d :: rest ∧ d.isDigit ∧ ∀ c ∈ rest, c.isDigit := by
  obtain ⟨d, rest, rfl⟩ := List.exists_cons_of_ne_nil h.ne_nil
  exact ⟨d, rest, rfl, h.isDigit d (by simp), fun c hc => h.isDigit c (by simp [hc])⟩

end Digits

theorem digits_toDigits (n : Nat) : Digits (Nat.toDigits 10 n) where
  ne_nil := Nat.toDigits_ne_nil
  isDigit _ hc := Nat.isDigit_of_mem_toDigits (by decide) (by decide) hc

theorem natOfDigits_toDigits (n : Nat) : natOfDigits (Nat.toDigits 10 n) = n :=
  calc natOfDigits (Nat.toDigits 10 n)
      = Nat.ofDigitChars 10 (Nat.toDigits 10 n) 0 := Nat.ofDigitChars_eq_foldl.symm
    _ = n := Nat.ofDigitChars_ten_toDigits

theorem head?_toDigits_ne_zero {n : Nat} (hn : 0 < n) :
    (Nat.toDigits 10 n).head? ≠ some '0' := by
  induction n using Nat.strong_induction_on with
  | _ n ih =>
    by_cases hlt : n < 10
    · rw [Nat.toDigits_of_lt_base hlt, List.head?_cons, ne_eq, Option.some.injEq,
        Nat.digitChar_eq_zero]
      exact hn.ne'
    · have hrest := ih (n / 10) (Nat.div_lt_self hn (by decide)) (by omega)
      obtain ⟨d, ds, hds⟩ :=
        List.exists_cons_of_ne_nil (Nat.toDigits_ne_nil (n := n / 10) (b := 10))
      rw [Nat.toDigits_of_base_le (by decide) (Nat.le_of_not_lt hlt)]
      rw [hds] at hrest ⊢
      exact hrest

theorem readNat?_of_digits {ds : List Char} (h : Digits ds) :
    readNat? ds = some (natOfDigits ds) := by
  simp [readNat?, h.ne_nil, List.all_eq_true.2 h.isDigit]

theorem readNat?_eq_some_iff {ds : List Char} {k : Nat} :
    readNat? ds = some k ↔ Digits ds ∧ natOfDigits ds = k := by
  constructor
  · intro h
    rw [readNat?] at h
    split at h
    · next hdigits =>
      rw [Bool.and_eq_true, List.all_eq_true] at hdigits
      exact ⟨⟨by simpa using hdigits.1, hdigits.2⟩, Option.some.inj h⟩
    · cases h
  · rintro ⟨h, rfl⟩
    exact readNat?_of_digits h

theorem readNat?_toDigits (n : Nat) : readNat? (Nat.toDigits 10 n) = some n := by
  rw [readNat?_of_digits (digits_toDigits n), natOfDigits_toDigits]

/-- The usual spelling of an integer. -/
theorem toList_toString_int (n : Int) :
    (toString n).toList = (if n < 0 then ['-'] else []) ++ Nat.toDigits 10 n.natAbs := by
  cases n with
  | ofNat m =>
    simp [toString, Int.repr, Nat.repr_eq_ofList_toDigits]
  | negSucc m =>
    simp [toString, Int.repr, Nat.repr_eq_ofList_toDigits, Int.negSucc_lt_zero]

/-- Digits have no sign to split off. -/
theorem splitSign_of_digits {ds : List Char} (h : Digits ds) : splitSign ds = (false, ds) := by
  obtain ⟨d, rest, rfl, hd, -⟩ := h.exists_cons
  have hplus : d ≠ '+' := by rintro rfl; exact absurd hd (by decide)
  have hminus : d ≠ '-' := by rintro rfl; exact absurd hd (by decide)
  simp [splitSign, hplus, hminus]

/-! ### Numerals of integers -/

/-- The text is a numeral of the integer: an optional sign and one or more digits that denote its
absolute value. -/
inductive IsNumeral : List Char → Int → Prop
  | unsigned {ds : List Char} (h : Digits ds) : IsNumeral ds (Nat.ofDigitChars 10 ds 0)
  | plus {ds : List Char} (h : Digits ds) : IsNumeral ('+' :: ds) (Nat.ofDigitChars 10 ds 0)
  | minus {ds : List Char} (h : Digits ds) : IsNumeral ('-' :: ds) (-Nat.ofDigitChars 10 ds 0)

theorem natOfDigits_eq_ofDigitChars (ds : List Char) :
    natOfDigits ds = Nat.ofDigitChars 10 ds 0 :=
  Nat.ofDigitChars_eq_foldl.symm

/-- The integer with the given absolute value, negative behind a minus. -/
def signed (minus : Bool) (k : Nat) : Int := if minus then -(k : Int) else k

theorem readInt?_eq_map (cs : List Char) :
    readInt? cs = (readNat? (splitSign cs).2).map (signed (splitSign cs).1) := by
  rw [readInt?]
  obtain ⟨minus, ds⟩ := splitSign cs
  simp only
  cases readNat? ds <;> rfl

/-- **An integer is read from its numerals**, and from nothing else. -/
theorem readInt?_eq_some_iff {cs : List Char} {n : Int} :
    readInt? cs = some n ↔ IsNumeral cs n := by
  rw [readInt?_eq_map]
  constructor
  · intro h
    obtain ⟨k, hk, rfl⟩ := Option.map_eq_some_iff.mp h
    obtain ⟨hdigits, rfl⟩ := readNat?_eq_some_iff.mp hk
    rw [natOfDigits_eq_ofDigitChars]
    unfold splitSign at hdigits ⊢
    split at hdigits
    · exact .plus hdigits
    · exact .minus hdigits
    · exact .unsigned hdigits
  · intro h
    cases h with
    | unsigned h =>
      rw [splitSign_of_digits h, readNat?_of_digits h, natOfDigits_eq_ofDigitChars]
      rfl
    | plus h | minus h =>
      rw [splitSign, readNat?_of_digits h, natOfDigits_eq_ofDigitChars]
      rfl

/-- The usual spelling of an integer, with zeros in front of the digits. -/
def padded (zeros : Nat) (n : Int) : List Char :=
  (if n < 0 then ['-'] else []) ++ (List.replicate zeros '0' ++ Nat.toDigits 10 n.natAbs)

theorem isNumeral_of_natAbs {ds : List Char} (h : Digits ds) {n : Int}
    (hvalue : Nat.ofDigitChars 10 ds 0 = n.natAbs) :
    IsNumeral ((if n < 0 then ['-'] else []) ++ ds) n := by
  by_cases hneg : n < 0
  · have hn : n = -(Nat.ofDigitChars 10 ds 0 : Nat) := by omega
    rw [if_pos hneg, hn]
    exact .minus h
  · have hn : n = (Nat.ofDigitChars 10 ds 0 : Nat) := by omega
    rw [if_neg hneg, hn]
    exact .unsigned h

theorem isNumeral_padded (zeros : Nat) (n : Int) : IsNumeral (padded zeros n) n := by
  refine isNumeral_of_natAbs ⟨by simp [(digits_toDigits n.natAbs).ne_nil], fun c hc => ?_⟩ ?_
  · rcases List.mem_append.mp hc with hc | hc
    · rw [List.eq_of_mem_replicate hc]
      rfl
    · exact (digits_toDigits n.natAbs).isDigit c hc
  · rw [Nat.ofDigitChars_append, Nat.ofDigitChars_replicate_zero, Nat.mul_zero,
      Nat.ofDigitChars_ten_toDigits]

theorem readInt?_toString (n : Int) : readInt? (toString n).toList = some n := by
  rw [toList_toString_int, readInt?_eq_some_iff]
  exact isNumeral_padded 0 n

/-! ### Integers of 64 bits -/

theorem inInt64_signed_of_le {minus : Bool} {k l : Nat} (h : k ≤ l)
    (hl : inInt64 (signed minus l)) : inInt64 (signed minus k) := by
  cases minus <;> simp [inInt64, signed] at hl ⊢ <;> omega

/-- The tenfold of an integer is in range if the integer with one more digit is. -/
theorem appendDigit?_signed (minus : Bool) (k : Nat) {c : Char} (hc : c.isDigit) :
    appendDigit? minus (signed minus k) c =
      (some (signed minus (10 * k + digitValue c))).filter inInt64 := by
  have htenfold : 10 * signed minus k = signed minus (10 * k) := by
    cases minus <;> simp [signed]
  have hnext : (if minus then signed minus (10 * k) - digitValue c
      else signed minus (10 * k) + digitValue c) = signed minus (10 * k + digitValue c) := by
    cases minus <;> simp [signed]
    omega
  rw [appendDigit?, if_pos hc, htenfold]
  by_cases h : inInt64 (signed minus (10 * k + digitValue c))
  · have hbefore := inInt64_signed_of_le (Nat.le_add_right _ _) h
    rw [Option.filter_some, if_pos hbefore, Option.bind_some, hnext]
  · rw [Option.filter_some, Option.filter_some, if_neg h]
    split
    · rw [Option.bind_some, hnext, Option.filter_some, if_neg h]
    · rfl

theorem le_foldl_digitValue (ds : List Char) (k : Nat) :
    k ≤ ds.foldl (fun n c => 10 * n + digitValue c) k := by
  induction ds generalizing k with
  | nil => exact Nat.le_refl k
  | cons d ds ih => exact (by omega : k ≤ 10 * k + digitValue d).trans (ih _)

/-- **Reading digit by digit stops exactly where the whole number is out of range**: an integer that
has left the range does not come back. -/
theorem foldlM_appendDigit?_signed {minus : Bool} {ds : List Char} (hds : ∀ c ∈ ds, c.isDigit)
    {k : Nat} (hk : inInt64 (signed minus k)) :
    ds.foldlM (appendDigit? minus) (signed minus k) =
      (some (signed minus (ds.foldl (fun n c => 10 * n + digitValue c) k))).filter inInt64 := by
  induction ds generalizing k with
  | nil => rw [List.foldlM_nil, List.foldl_nil, Option.filter_some, if_pos hk]; rfl
  | cons d ds ih =>
    have hd : d.isDigit := hds d List.mem_cons_self
    rw [List.foldlM_cons, appendDigit?_signed minus k hd, List.foldl_cons]
    by_cases hnext : inInt64 (signed minus (10 * k + digitValue d))
    · rw [Option.filter_some, if_pos hnext]
      exact ih (fun c hc => hds c (List.mem_cons_of_mem d hc)) hnext
    · have hlast : ¬ inInt64 (signed minus
          (ds.foldl (fun n c => 10 * n + digitValue c) (10 * k + digitValue d))) :=
        fun h => hnext (inInt64_signed_of_le (le_foldl_digitValue ds _) h)
      rw [Option.filter_some, if_neg hnext, Option.filter_some, if_neg hlast]
      rfl

theorem foldlM_appendDigit?_eq_none {minus : Bool} {ds : List Char} {c : Char} (hc : c ∈ ds)
    (hdigit : c.isDigit = false) (n : Int) : ds.foldlM (appendDigit? minus) n = none := by
  induction ds generalizing n with
  | nil => cases hc
  | cons d ds ih =>
    rw [List.foldlM_cons]
    rcases List.mem_cons.mp hc with rfl | hc
    · rw [appendDigit?, if_neg (by simp [hdigit])]
      rfl
    · cases appendDigit? minus n d with
      | none => rfl
      | some m => exact ih hc m

/-- **Integers of 64 bits are read as all integers are**, and kept if they are in range. -/
theorem readInt64?_eq_filter (cs : List Char) : readInt64? cs = (readInt? cs).filter inInt64 := by
  rw [readInt64?, readInt?_eq_map]
  obtain ⟨minus, ds⟩ := splitSign cs
  simp only
  have hzero : signed minus 0 = 0 := by cases minus <;> rfl
  by_cases hnil : ds = []
  · simp [hnil, readNat?]
  rw [if_neg (by simpa using hnil)]
  by_cases hdigits : ∀ c ∈ ds, c.isDigit
  · have hread : ds.foldlM (appendDigit? minus) (signed minus 0) =
        (some (signed minus (natOfDigits ds))).filter inInt64 :=
      foldlM_appendDigit?_signed hdigits (by rw [hzero]; decide)
    rw [hzero] at hread
    rw [readNat?_of_digits ⟨hnil, hdigits⟩, hread, Option.map_some]
  · obtain ⟨c, hc, hdigit⟩ : ∃ c ∈ ds, c.isDigit = false := by simpa using hdigits
    have hnone : readNat? ds = none := if_neg (by simpa using fun _ => ⟨c, hc, hdigit⟩)
    rw [hnone, foldlM_appendDigit?_eq_none hc hdigit]
    rfl

theorem inInt64_of_readInt64? {cs : List Char} {n : Int} (h : readInt64? cs = some n) :
    inInt64 n := by
  rw [readInt64?_eq_filter] at h
  exact (Option.filter_eq_some_iff.1 h).2

theorem readInt64?_toString {n : Int} (h : inInt64 n) :
    readInt64? (toString n).toList = some n := by
  rw [readInt64?_eq_filter, readInt?_toString, Option.filter_some, if_pos h]

end RunLedger.Text
