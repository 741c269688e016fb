/-!
# White space and letter case

Names, keys and numbers arrive as text with stray white space around them. White space is the
Unicode property `White_Space`; zero-width spaces, the byte order mark and the separators
U+001C–U+001F do not have it. Letter case is compared on the twenty-six Latin letters only.

## Main definitions

* `Text.isSpace`: the characters with the property.
* `Text.trim`: the text without white space at either end.
* `Text.isBlank`: nothing is left after trimming.
* `Text.sameLetters`: equality up to the case of the letters A–Z.
-/

namespace RunLedger.Text

/-- The characters with the Unicode property `White_Space`. -/
def isSpace (c : Char) : Bool :=
  let n := c.toNat
  (9 ≤ n && n ≤ 13) || n == 0x20 || n == 0x85 || n == 0xA0 || n == 0x1680
    || (0x2000 ≤ n && n ≤ 0x200A) || n == 0x2028 || n == 0x2029 || n == 0x202F
    || n == 0x205F || n == 0x3000

/-- The characters left when white space is removed from both ends. -/
def trim (cs : List Char) : List Char :=
  ((cs.dropWhile isSpace).reverse.dropWhile isSpace).reverse

/-- A text of white space only, the empty text included. -/
def isBlank (s : String) : Bool :=
  s.toList.all isSpace

/-- Equality up to the case of the letters A–Z. -/
def sameLetters (s t : List Char) : Bool :=
  s.map Char.toLower == t.map Char.toLower

/-- The text without the slashes at its end. -/
def withoutTrailingSlashes (s : String) : String :=
  String.ofList (s.toList.reverse.dropWhile (· == '/')).reverse

/-- Dropping the leading members with a property leaves nothing exactly if all have it. -/
theorem dropWhile_eq_nil_iff (p : Char → Bool) (cs : List Char) :
    cs.dropWhile p = [] ↔ cs.all p = true := by
  induction cs with
  | nil => simp
  | cons c cs ih =>
    rw [List.dropWhile_cons]
    cases h : p c <;> simp_all

/-- Trimming leaves nothing exactly of a blank text. -/
theorem trim_eq_nil_iff (cs : List Char) : trim cs = [] ↔ cs.all isSpace = true := by
  have hsplit := List.takeWhile_append_dropWhile (p := isSpace) (l := cs)
  simp only [trim, List.reverse_eq_nil_iff, dropWhile_eq_nil_iff, List.all_reverse]
  constructor
  · intro h
    rw [← hsplit, List.all_append, h, Bool.and_true]
    exact List.all_takeWhile
  · intro h
    rw [(dropWhile_eq_nil_iff isSpace cs).mpr h]
    rfl

end RunLedger.Text
