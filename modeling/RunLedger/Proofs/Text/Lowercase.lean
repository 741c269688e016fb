import Mathlib
import RunLedger.Text.Lowercase

/-!
# Letter case

Two texts are equal up to the case of all characters if their lower cases are equal. Where one of
them is written in Latin letters this is equality up to the case of these letters. A character
outside ASCII has a lower case with a character outside ASCII in it, with the exception of the
Kelvin sign, whose lower case is the letter k. So where no k is asked for, no such character can
stand for a Latin letter. Whichever lower case a capital sigma has makes no difference.

## Main definitions

* `Text.SameUpToCase`: equality of characters up to the case of the letters A–Z.
* `Text.IsLowercase`: a lower case of a text, with either lower case of a capital sigma.

## Main results

* `Text.map_toLower_eq_iff`: equality of texts up to the case of the letters A–Z.
* `Text.lowerChar_cases`: the lower case of an ASCII character, and of another one.
* `Text.IsLowercase.eq_iff`: a lower case in Latin letters comes from Latin letters.
-/

namespace RunLedger.Text

/-! ### The letters A–Z -/

/-- Two characters are the same, or one is a letter A–Z and the other the same letter of a–z. -/
def SameUpToCase (c d : Char) : Prop :=
  c = d ∨ c.isUpper ∧ d.toNat = c.toNat + 32 ∨ d.isUpper ∧ c.toNat = d.toNat + 32

instance : DecidableRel SameUpToCase := fun _ _ => inferInstanceAs (Decidable (_ ∨ _))

theorem toNat_le_of_isUpper {c : Char} (h : c.isUpper) : c.toNat ≤ 90 := by
  have hcode : 65 ≤ c.toNat ∧ c.toNat ≤ 90 := by
    simpa [Char.isUpper, UInt32.le_iff_toNat_le] using h
  exact hcode.2

theorem toNat_toLower (c : Char) :
    c.toLower.toNat = if c.isUpper then c.toNat + 32 else c.toNat := by
  split_ifs with h
  · have hvalid : (c.toNat + 32).isValidChar := by
      have := toNat_le_of_isUpper h
      exact .inl (by omega)
    rw [Char.toLower_eq_of_isUpper h, Char.toNat_ofNat, if_pos hvalid]
  · rw [Char.toLower_eq_of_not_isUpper h]

theorem toLower_eq_toLower_iff {c d : Char} : c.toLower = d.toLower ↔ SameUpToCase c d := by
  rw [← Char.toNat_inj, toNat_toLower, toNat_toLower, SameUpToCase, ← Char.toNat_inj]
  simp only [Char.isUpper]
  grind [UInt32.le_iff_toNat_le, Char.toNat]

theorem map_toLower_eq_iff {cs ds : List Char} :
    cs.map Char.toLower = ds.map Char.toLower ↔ List.Forall₂ SameUpToCase cs ds := by
  simp only [← List.forall₂_eq_eq_eq, List.forall₂_map_left_iff, List.forall₂_map_right_iff,
    toLower_eq_toLower_iff]

/-! ### All characters -/

/-- The second text is a lower case of the first. A capital sigma has another lower case at the end
of a word. -/
inductive IsLowercase : List Char → List Char → Prop
  | nil : IsLowercase [] []
  | cons (c : Char) {cs ds : List Char} (h : IsLowercase cs ds) :
      IsLowercase (c :: cs) (lowerChar c ++ ds)
  | finalSigma {cs ds : List Char} (h : IsLowercase cs ds) : IsLowercase ('Σ' :: cs) ('ς' :: ds)

theorem isLowercase_lowercase : (cs : List Char) → IsLowercase cs (lowercase cs)
  | [] => .nil
  | c :: cs => .cons c (isLowercase_lowercase cs)

/-- A row of capitals is that of the Latin letters, that of the Kelvin sign, or leads from
characters outside ASCII to others outside ASCII. -/
theorem capitalRows_cases : ∀ row ∈ capitalRows,
    row.last ≤ 0x5A ∨ row.first = 0x212A ∧ row.last = 0x212A ∨
      128 ≤ row.first + row.offset ∧ (row.last + row.offset < 0xD800 ∨
        0xDFFF < row.first + row.offset ∧ row.last + row.offset < 0x110000) := by
  decide +kernel

theorem lowerChar_of_lt {c : Char} (h : c.toNat < 128) : lowerChar c = [c.toLower] := by
  have hall : ∀ n < 128, lowerChar (Char.ofNat n) = [(Char.ofNat n).toLower] := by decide +kernel
  simpa using hall c.toNat h

/-- The lower case of a character outside ASCII has a character outside ASCII in it, or it is the
letter k. -/
theorem exists_mem_lowerChar {c : Char} (h : 128 ≤ c.toNat) :
    ∃ d ∈ lowerChar c, 128 ≤ d.toNat ∨ d = 'k' := by
  by_cases hkelvin : c = '\u212A'
  · exact ⟨'k', by rw [hkelvin]; decide +kernel, .inr rfl⟩
  by_cases hdotted : c = '\u0130'
  · exact ⟨'\u0307', by rw [hdotted]; decide +kernel, .inl (by decide)⟩
  rw [lowerChar, if_neg hdotted]
  split
  · next row hrow =>
    have hhas := List.find?_some hrow
    simp only [CapitalRow.has, Bool.and_eq_true, decide_eq_true_eq] at hhas
    refine ⟨_, List.mem_singleton_self _, .inl ?_⟩
    rcases capitalRows_cases row (List.mem_of_find?_eq_some hrow) with hlatin | hsign | hother
    · omega
    · have hcode : c.toNat = 0x212A := by omega
      exact absurd (Char.toNat_inj.mp (hcode.trans rfl)) hkelvin
    · have hvalid : (c.toNat + row.offset).toNat.isValidChar := by
        rcases hother with ⟨hlow, hhigh | hhigh⟩
        · exact .inl (by omega)
        · exact .inr ⟨by omega, by omega⟩
      rw [Char.toNat_ofNat, if_pos hvalid]
      omega
  · exact ⟨c, List.mem_singleton_self c, .inl h⟩

theorem toLower_of_le {c : Char} (h : 128 ≤ c.toNat) : c.toLower = c :=
  Char.toLower_eq_of_not_isUpper fun hupper => by
    have := toNat_le_of_isUpper hupper
    omega

/-- Of the characters with a lower case in ASCII only the Kelvin sign is outside ASCII. -/
theorem lowerChar_cases (c : Char) :
    lowerChar c = [c.toLower] ∧ c.toNat < 128 ∨
      c.toLower = c ∧ 128 ≤ c.toNat ∧ ∃ d ∈ lowerChar c, 128 ≤ d.toNat ∨ d = 'k' := by
  by_cases h : c.toNat < 128
  · exact .inl ⟨lowerChar_of_lt h, h⟩
  · exact .inr ⟨toLower_of_le (by omega), by omega, exists_mem_lowerChar (by omega)⟩

theorem IsLowercase.eq_iff_map_toLower_eq {cs ds : List Char} (h : IsLowercase cs ds)
    {word : List Char} (hword : ∀ c ∈ word, c.toNat < 128 ∧ c ≠ 'k') :
    ds = word ↔ cs.map Char.toLower = word := by
  induction h generalizing word with
  | nil => rfl
  | cons c h ih =>
    rcases lowerChar_cases c with ⟨hlower, -⟩ | ⟨hself, hcode, d, hd, hout⟩
    · cases word with
      | nil => simp [hlower]
      | cons w word =>
        rw [hlower, List.singleton_append, List.map_cons, List.cons.injEq, List.cons.injEq,
          ih fun c hc => hword c (List.mem_cons_of_mem w hc)]
    · constructor
      · rintro rfl
        have := hword d (List.mem_append_left _ hd)
        grind
      · rintro rfl
        have := hword c (by simp [hself])
        omega
  | finalSigma h ih =>
    constructor
    · rintro rfl
      exact absurd (hword 'ς' List.mem_cons_self).1 (by decide)
    · rintro rfl
      exact absurd (hword 'Σ' List.mem_cons_self).1 (by decide)

/-- **A lower case in Latin letters, none of them a k, comes from these letters**, whatever other
characters there are. -/
theorem IsLowercase.eq_iff {cs ds : List Char} (h : IsLowercase cs ds) {word : List Char}
    (hword : ∀ c ∈ word, c.toNat < 128 ∧ c.toLower ≠ 'k') :
    ds = word.map Char.toLower ↔ List.Forall₂ SameUpToCase cs word := by
  rw [h.eq_iff_map_toLower_eq, map_toLower_eq_iff]
  intro d hd
  obtain ⟨c, hc, rfl⟩ := List.mem_map.mp hd
  refine ⟨?_, (hword c hc).2⟩
  rw [toNat_toLower]
  split
  · next hupper =>
    have := toNat_le_of_isUpper hupper
    omega
  · exact (hword c hc).1

end RunLedger.Text
