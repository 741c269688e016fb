import Mathlib.Data.String.Basic
import RunLedger.Text.Bytes

/-!
# Texts in the order of their bytes

Tables compare texts by their characters, a database compares them by their bytes in UTF-8. The two
orders are the same. Of two characters, the bytes of the lower one are below those of the higher at
the first place where they differ, and there is such a place, so what follows them does not count.

## Main results

* `Text.utf8EncodeChar_append_lt`: a lower character has lower bytes, whatever follows.
* `Text.bytes_lt`: a lower text has lower bytes.
-/

namespace RunLedger.Text

/-- **A lower character has lower bytes, whatever follows.** -/
theorem utf8EncodeChar_append_lt {c d : Char} (h : c < d) (xs ys : List UInt8) :
    String.utf8EncodeChar c ++ xs < String.utf8EncodeChar d ++ ys := by
  have hlt : c.val.toNat < d.val.toNat := h
  have hbound : d.val.toNat < 0x110000 := by
    have hvalid := d.valid
    simp only [UInt32.isValidChar, Nat.isValidChar] at hvalid
    omega
  generalize hm : c.val.toNat = m at hlt
  generalize hn : d.val.toNat = n at hlt hbound
  simp only [String.utf8EncodeChar, hm, hn]
  -- The number of bytes of each character; the case of fewer bytes for the higher one is void.
  split_ifs <;>
    simp (disch := omega) only [List.cons_append, List.nil_append, List.cons_lt_cons_iff,
      UInt8.lt_iff_toNat_lt, ← UInt8.toNat_inj, UInt8.toNat_ofNat', Nat.mod_eq_of_lt] <;>
    omega

theorem flatMap_utf8EncodeChar_lt {cs ds : List Char} (h : cs < ds) :
    cs.flatMap String.utf8EncodeChar < ds.flatMap String.utf8EncodeChar := by
  induction cs generalizing ds with
  | nil =>
    cases ds with
    | nil => exact absurd h (List.lt_irrefl [])
    | cons d ds =>
      obtain ⟨b, bs, hbytes⟩ := List.exists_cons_of_ne_nil (String.utf8EncodeChar_ne_nil (c := d))
      rw [List.flatMap_nil, List.flatMap_cons, hbytes]
      exact List.Lex.nil
  | cons c cs ih =>
    cases ds with
    | nil => exact absurd h (List.not_lt_nil (c :: cs))
    | cons d ds =>
      rw [List.flatMap_cons, List.flatMap_cons]
      rcases List.cons_lt_cons_iff.mp h with hlt | ⟨rfl, hrest⟩
      · exact utf8EncodeChar_append_lt hlt _ _
      · exact List.Lex.append_left _ (ih hrest) _

theorem bytes_eq_flatMap (s : String) : bytes s = s.toList.flatMap String.utf8EncodeChar := by
  rw [bytes, String.toUTF8_eq_toByteArray, ← String.utf8Encode_toList, List.utf8Encode,
    List.data_toByteArray]

/-- **A lower text has lower bytes.** -/
theorem bytes_lt {s t : String} (h : compare s t = .lt) : bytes s < bytes t := by
  rw [bytes_eq_flatMap, bytes_eq_flatMap]
  exact flatMap_utf8EncodeChar_lt (String.lt_iff_toList_lt.mp (compare_lt_iff_lt.mp h))

end RunLedger.Text
