import Mathlib.Data.List.Forall2
import RunLedger.Proofs.Json.Numbers
import RunLedger.Proofs.Json.Record

/-!
# Encoding and decoding undo each other

A type with a JSON form keeps the law of its codec if every form it writes is well written, a value
is decoded from its own form, and what it decodes at all is such a value again. Two things a type of
the language can hold have no JSON form that denotes them: integers of more than 64 bits, and
floating-point numbers whose decimal text denotes another number. The first are excluded, and the
second are listed, so that a law can ask of each of them to be read back.

## Main definitions

* `JsonContents`: the integers of a value have their width, and the floating-point numbers in it.
* `Json.ReadsBack`: a floating-point number is decoded from its own text.
* `LawfulJsonCodec`: the law of a type.
* `RoundTrips`: the texts of a type, and what they are read as, determine each other.

## Main results

* `LawfulJsonCodec.roundTrips`: the law of a type carries over to its texts.
* The instances for strings and lists.
-/

namespace RunLedger

/-- What a value of a type holds that JSON can say only in part. -/
class JsonContents (α : Type) where
  /-- The integers have the width of their fields. -/
  Fits : α → Prop := fun _ => True
  /-- The floating-point numbers. -/
  numbers : α → List Binary64 := fun _ => []

/-- A floating-point number is decoded from the text that is written for it. -/
def Json.ReadsBack (x : Binary64) : Prop := Json.binary64? (Json.ofBinary64 x) = some x

instance (x : Binary64) : Decidable (Json.ReadsBack x) :=
  inferInstanceAs (Decidable (_ = _))

open JsonCodec JsonContents Json

/-- The law of a type with a JSON form. -/
class LawfulJsonCodec (α : Type) [JsonCodec α] [JsonContents α] : Prop where
  /-- Numbers and strings are written as the grammar has them. -/
  wellWritten (a : α) : (encode a).WellWritten
  /-- A value is decoded from its own form. -/
  decode?_encode {a : α} (hfits : Fits a) (hnumbers : ∀ x ∈ numbers a, ReadsBack x) :
    decode? (encode a) = some a
  /-- The integers of a decoded value have the width of their fields. -/
  fits_of_decode? {j : Json} {a : α} (h : decode? j = some a) : Fits a
  /-- The floating-point numbers of a decoded value are finite. -/
  isFinite_of_decode? {j : Json} {a : α} (h : decode? j = some a) :
    ∀ x ∈ numbers a, x.IsFinite

/-- A value whose integers have their width and whose floating-point numbers are finite is read back
from both of its texts and written again as before, and what any text is read as is read back from
both of its own texts, provided that each of its finite numbers is read back from its own text. -/
structure RoundTrips (α : Type) [JsonCodec α] [JsonContents α] : Prop where
  /-- A value is read back from its compact text. -/
  ofText?_toText (a : α) (hfits : Fits a) (hfinite : ∀ x ∈ numbers a, x.IsFinite)
    (hnumbers : ∀ x ∈ numbers a, x.IsFinite → ReadsBack x) : ofText? (toText a) = some a
  /-- A value is read back from its text over lines. -/
  ofText?_toLines (a : α) (hfits : Fits a) (hfinite : ∀ x ∈ numbers a, x.IsFinite)
    (hnumbers : ∀ x ∈ numbers a, x.IsFinite → ReadsBack x) : ofText? (toLines a) = some a
  /-- What is read back is written again as before. -/
  toText_again (a : α) (hfits : Fits a) (hfinite : ∀ x ∈ numbers a, x.IsFinite)
    (hnumbers : ∀ x ∈ numbers a, x.IsFinite → ReadsBack x) :
    (ofText? (α := α) (toText a)).map toText = some (toText a)
  /-- What a text is read as is read back from its own texts. -/
  ofText?_again (s : String) (a : α) (h : ofText? s = some a)
    (hnumbers : ∀ x ∈ numbers a, x.IsFinite → ReadsBack x) :
    ofText? (toText a) = some a ∧ ofText? (toLines a) = some a

namespace LawfulJsonCodec

variable {α : Type} [JsonCodec α] [JsonContents α] [LawfulJsonCodec α] {a : α}

theorem ofText?_toText (hfits : Fits a) (hnumbers : ∀ x ∈ numbers a, ReadsBack x) :
    ofText? (toText a) = some a := by
  rw [ofText?, toText, String.toList_ofList, parse?_print (wellWritten a), Option.bind_some,
    decode?_encode hfits hnumbers]

/-- A value is read back from its text over lines, also with white space behind it. -/
theorem ofText?_toLines_append (hfits : Fits a) (hnumbers : ∀ x ∈ numbers a, ReadsBack x)
    {after : String} (hafter : Blank after.toList) : ofText? (toLines a ++ after) = some a := by
  rw [ofText?, toLines, String.toList_append, String.toList_ofList,
    parse?_printLines (wellWritten a) hafter, Option.bind_some, decode?_encode hfits hnumbers]

theorem ofText?_toLines (hfits : Fits a) (hnumbers : ∀ x ∈ numbers a, ReadsBack x) :
    ofText? (toLines a) = some a := by
  have hnil : Blank ("" : String).toList := Blank.nil
  simpa using ofText?_toLines_append hfits hnumbers hnil

/-- The law of a type carries over to its texts. -/
theorem roundTrips : RoundTrips α where
  ofText?_toText _ hfits hfinite hnumbers :=
    ofText?_toText hfits fun x hx => hnumbers x hx (hfinite x hx)
  ofText?_toLines _ hfits hfinite hnumbers :=
    ofText?_toLines hfits fun x hx => hnumbers x hx (hfinite x hx)
  toText_again _ hfits hfinite hnumbers := by
    rw [ofText?_toText hfits fun x hx => hnumbers x hx (hfinite x hx), Option.map_some]
  ofText?_again s a h hnumbers := by
    obtain ⟨j, -, hj⟩ := Option.bind_eq_some_iff.1 h
    have hread : ∀ x ∈ numbers a, ReadsBack x :=
      fun x hx => hnumbers x hx (isFinite_of_decode? hj x hx)
    exact ⟨ofText?_toText (fits_of_decode? hj) hread, ofText?_toLines (fits_of_decode? hj) hread⟩

end LawfulJsonCodec

instance : JsonContents String where

instance : LawfulJsonCodec String where
  wellWritten := wellWritten_ofString
  decode?_encode _ _ := text?_ofString _
  fits_of_decode? _ := trivial
  isFinite_of_decode? _ := by simp [numbers]

/-! ### Lists -/

section

variable {α : Type} [JsonCodec α]

/-- A list is decoded member by member. -/
theorem mapM_decode?_eq_some_iff {items : List Json} {as : List α} :
    items.mapM decode? = some as ↔ List.Forall₂ (fun j a => decode? j = some a) items as := by
  induction items generalizing as with
  | nil => rw [List.mapM_nil, List.forall₂_nil_left_iff, eq_comm, Option.pure_def,
      Option.some.injEq]
  | cons j js ih =>
    simp only [List.mapM_cons, read_then_eq_some_iff, List.forall₂_cons_left_iff, ih,
      Option.pure_def, Option.some.injEq, exists_and_left, eq_comm (a := as)]

/-- The members of a decoded list are decoded. -/
theorem exists_of_mem_decode? {j : Json} {as : List α} (h : decode? j = some as) {a : α}
    (ha : a ∈ as) : ∃ i : Json, decode? i = some a := by
  cases j with
  | array items =>
    have hread := (mapM_decode?_eq_some_iff.1 h).flip.imp (S := fun a i =>
      (∃ i : Json, decode? i = some a) ∧ decode? i = some a) fun _ i hi => ⟨⟨i, hi⟩, hi⟩
    exact ((List.forall₂_and_left _ _).1 hread).1 a ha
  | _ => cases h

/-- A list is read only if each of its items is. -/
theorem exists_of_decode?_encode {as bs : List α} (h : decode? (encode as) = some bs) {a : α}
    (ha : a ∈ as) : ∃ b : α, decode? (encode a) = some b := by
  have hread := (mapM_decode?_eq_some_iff.1 h).imp (S := fun i b =>
    (∃ b : α, decode? i = some b) ∧ decode? i = some b) fun _ b hb => ⟨⟨b, hb⟩, hb⟩
  exact ((List.forall₂_and_left _ _).1 hread).1 _ (List.mem_map_of_mem ha)

variable [JsonContents α]

instance : JsonContents (List α) where
  Fits as := ∀ a ∈ as, Fits a
  numbers as := as.flatMap numbers

variable [LawfulJsonCodec α]

instance : LawfulJsonCodec (List α) where
  wellWritten as := .array (by
    simp only [List.mem_map]
    rintro v ⟨a, -, rfl⟩
    exact LawfulJsonCodec.wellWritten a)
  decode?_encode hfits hnumbers :=
    mapM_decode?_eq_some_iff.2 <| List.forall₂_map_left_iff.2 <| List.forall₂_same.2 fun a ha =>
      LawfulJsonCodec.decode?_encode (hfits a ha) fun x hx =>
        hnumbers x (List.mem_flatMap.2 ⟨a, ha, hx⟩)
  fits_of_decode? h a ha := by
    obtain ⟨i, hi⟩ := exists_of_mem_decode? h ha
    exact LawfulJsonCodec.fits_of_decode? hi
  isFinite_of_decode? h x hx := by
    obtain ⟨a, ha, hxa⟩ := List.mem_flatMap.1 hx
    obtain ⟨i, hi⟩ := exists_of_mem_decode? h ha
    exact LawfulJsonCodec.isFinite_of_decode? hi x hxa

end

end RunLedger
