import RunLedger.Json.Number
import RunLedger.Proofs.Binary64.Range
import RunLedger.Proofs.Binary64.Shortest
import RunLedger.Proofs.Json.Printing

/-!
# Floating-point numbers in JSON texts

However the digits of a finite number are laid out, with a point among them or with an exponent, the
text is a number of the grammar; what is not finite is printed as `null`. A number that is read is
finite: a coefficient of 64 bits is far below the largest finite number, the divisions by powers of
ten do not enlarge it, and a product that would be infinite is refused.

## Main results

* `Json.isNumber_place`, `Json.isNumber_render`: laid-out digits are a number of the grammar.
* `Json.wellWritten_ofBinary64`: so the form of every value is well written.
* `Json.isFinite_of_binary64?`: a number that is read is finite.
-/

namespace RunLedger.Json

open Text (Digits)

/-- Digits that do not begin with zero are an integer part, whatever digits follow them. -/
theorem isWhole_append {ds es : List Char} (h : Digits ds) (hhead : ds.head? ≠ some '0')
    (hes : ∀ c ∈ es, c.isDigit) : IsWhole (ds ++ es) := by
  refine .inr ⟨h.append hes, ?_⟩
  obtain ⟨d, more, rfl, -⟩ := h.exists_cons
  exact hhead

theorem isDigit_of_mem_replicate {n : Nat} {c : Char} (h : c ∈ List.replicate n '0') :
    c.isDigit := by
  rw [List.eq_of_mem_replicate h]
  decide

theorem isFraction_zeros_append {ds : List Char} (h : Digits ds) (n : Nat) :
    IsFraction ('.' :: (List.replicate n '0' ++ ds)) := by
  refine .inr ⟨_, ⟨by simp [h.ne_nil], fun c hc => ?_⟩, rfl⟩
  exact (List.mem_append.1 hc).elim isDigit_of_mem_replicate (h.isDigit c)

theorem isFraction_zero : IsFraction ['.', '0'] :=
  .inr ⟨['0'], ⟨by simp, by simp⟩, rfl⟩

theorem isExponent_positive (n : Nat) :
    IsExponent (numberLayout.positiveMark ++ Nat.toDigits 10 n) :=
  .inr ⟨'e', ['+'], _, .inl rfl, .inr (.inl rfl), Text.digits_toDigits n, rfl⟩

theorem isExponent_negative (n : Nat) :
    IsExponent (numberLayout.negativeMark ++ Nat.toDigits 10 n) :=
  .inr ⟨'e', ['-'], _, .inl rfl, .inr (.inr rfl), Text.digits_toDigits n, rfl⟩

/-- Digits that do not begin with zero are a number of the grammar once they are laid out. -/
theorem isNumber_place {sign ds : List Char} (hsign : sign = [] ∨ sign = ['-']) (h : Digits ds)
    (hhead : ds.head? ≠ some '0') (e : Int) :
    IsNumber (sign ++ numberLayout.place ds e) := by
  unfold NumberLayout.place
  split
  · split
    · -- a fraction below one
      simpa using IsNumber.intro hsign (.inl rfl) (isFraction_zeros_append h (-e - 1).toNat)
        (.inl rfl)
    · simp only
      split
      · -- an integer, with zeros up to the point
        simpa using IsNumber.intro hsign
          (isWhole_append h hhead fun c => isDigit_of_mem_replicate) isFraction_zero (.inl rfl)
      · -- the point among the digits
        rename_i hlong
        have hwhole : IsWhole (ds.take (e.toNat + 1)) := by
          refine .inr ⟨h.of_subset ?_ (List.take_subset _ _), ?_⟩
          · simp [h.ne_nil]
          · simpa [List.head?_take] using hhead
        have hfraction : IsFraction ('.' :: ds.drop (e.toNat + 1)) :=
          .inr ⟨_, h.of_subset (by simpa using hlong) (List.drop_subset _ _), rfl⟩
        simpa using IsNumber.intro hsign hwhole hfraction (.inl rfl)
  · -- an exponent behind one digit or behind a fraction
    have hexponent : IsExponent ((if e < 0 then numberLayout.negativeMark
        else numberLayout.positiveMark) ++ Nat.toDigits 10 e.natAbs) := by
      split
      · exact isExponent_negative _
      · exact isExponent_positive _
    obtain ⟨d, more, rfl, hd, hmore⟩ := h.exists_cons
    have hwhole : IsWhole [d] := .inr ⟨h.of_subset (by simp) (by simp), hhead⟩
    cases more with
    | nil => simpa using IsNumber.intro hsign hwhole (.inl rfl) hexponent
    | cons c cs =>
      simpa using IsNumber.intro hsign hwhole (.inr ⟨c :: cs, ⟨by simp, hmore⟩, rfl⟩) hexponent

theorem isNumber_render (x : Binary64) : IsNumber (numberLayout.render x) := by
  have hsign : (if x.negative then ['-'] else []) = []
      ∨ (if x.negative then ['-'] else []) = ['-'] := by
    split <;> simp
  unfold NumberLayout.render
  simp only
  split
  · simpa using IsNumber.intro hsign (.inl rfl) isFraction_zero (.inl rfl)
  · rename_i hmagnitude
    have hpos := Binary64.shortest_pos (Nat.pos_of_ne_zero hmagnitude)
    have hdigits := Text.digits_toDigits (Binary64.shortest x.magnitude).1
    have hhead := Text.head?_toDigits_ne_zero hpos
    exact isNumber_place hsign (NumberLayout.digits_trimmed hdigits hhead)
      (NumberLayout.head?_trimmed hdigits hhead) _

theorem wellWritten_ofBinary64 (x : Binary64) : (ofBinary64 x).WellWritten := by
  unfold ofBinary64
  split
  · exact .null
  · exact .number (isNumber_render x)

/-! ### Numbers that are read -/

theorem absorb_lt {c : Nat} (hc : c < 0x10000000000000000) (ds : List Char) :
    (absorb c ds).1 < 0x10000000000000000 := by
  induction ds generalizing c with
  | nil => exact hc
  | cons d ds ih =>
    simp only [absorb]
    split
    · rename_i hnext
      exact ih hnext
    · exact hc

/-- A scaled coefficient of 64 bits is finite. -/
theorem lt_infinite_of_scaled? {c m : Nat} (hc : c < 0x10000000000000000) {e : Int}
    (h : scaled? c e = some m) : m < Binary64.infinite := by
  have hcoefficient : Binary64.magnitudeOfRatio c 1 ≤ (64 + 1024) * 0x10000000000000 := by
    refine Binary64.magnitudeOfRatio_le_of_le Nat.one_pos ?_
    rw [Nat.cast_one, div_one]
    exact_mod_cast hc.le
  have honce := Binary64.scaleDown_le hcoefficient
  have htwice := Binary64.scaleDown_le (honce 308)
  simp only [scaled?] at h
  split at h
  · cases h; decide
  split at h
  · cases h
  split at h
  · -- a product, refused if it is infinite
    split at h
    · cases h
    · rename_i hne
      cases h
      exact Nat.lt_of_le_of_ne (Binary64.magnitudeOfRatio_le _ _) hne
  split at h
  · cases h
    exact (honce _).trans_lt (by decide)
  split at h
  · cases h
    exact (htwice _).trans_lt (by decide)
  · cases h; decide

/-- A number that is read is finite. -/
theorem isFinite_of_binary64? {j : Json} {x : Binary64} (h : binary64? j = some x) :
    x.IsFinite := by
  cases j with
  | number written =>
    simp only [binary64?, Option.bind_eq_bind, Option.bind_eq_some_iff] at h
    obtain ⟨e, -, m, hm, hx⟩ := h
    split at hx
    · cases hx
      exact lt_infinite_of_scaled? (absorb_lt (absorb_lt (by decide) _) _) hm
    · cases hx
  | _ => cases h

end RunLedger.Json
