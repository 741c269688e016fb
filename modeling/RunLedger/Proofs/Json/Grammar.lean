import Mathlib.Data.List.DropRight
import RunLedger.Json.Parser
import RunLedger.Proofs.Text.Digits

/-!
# The grammar of JSON texts

The grammar says which texts spell a value: numbers without leading zeros, strings with their known
escapes, and arrays and objects with white space around what they hold. A reader that meets a text
of the grammar reads the value it spells, up to the end of that text and whatever follows it, so the
value machine reads every such text within the depth it is given.

## Main definitions

* `Json.IsWritten`: what may stand between the quotes of a string.
* `Json.IsNumber`: the numbers, by their sign, integer part, fraction and exponent.
* `Json.EndsNumber`: a text that no number goes on into.
* `Json.Spells`, `Json.SpellsItems`, `Json.SpellsMembers`: the texts of a value, of the items of an
  array and of the members of an object.

## Main results

* `Json.scanString?_append`, `Json.scanNumber?_append`: a string and a number are scanned up to
  their ends.
* `Json.value?_append_of_spells`: the value machine reads what the grammar spells.
* `Json.parse?_of_spells`: so does the reader of whole texts, with white space around the value.
-/

namespace RunLedger.Json

open Text (Digits)

/-! ### Strings -/

/-- What may stand between the quotes of a string. -/
inductive IsWritten : List Char → Prop
  | nil : IsWritten []
  | code {a b c d : Char} {w : List Char} (hcode : (hex4? a b c d).isSome) (h : IsWritten w) :
    IsWritten ('\\' :: 'u' :: a :: b :: c :: d :: w)
  | short {c : Char} {w : List Char} (hshort : (shortEscape? c).isSome) (h : IsWritten w) :
    IsWritten ('\\' :: c :: w)
  | plain {c : Char} {w : List Char} (hquote : c ≠ '"') (hslash : c ≠ '\\')
    (hcontrol : 0x20 ≤ c.toNat) (h : IsWritten w) : IsWritten (c :: w)

/-- A string is scanned up to the quote that closes it. -/
theorem scanString?_append {w : List Char} (h : IsWritten w) (rest : List Char) :
    scanString? (w ++ '"' :: rest) = some (w, rest) := by
  induction h with
  | nil => simp [scanString?]
  | code hcode _ ih => simp [scanString?, hcode, ih]
  | @short c w hshort _ ih =>
    have hu : c ≠ 'u' := by rintro rfl; exact absurd hshort (by decide)
    simp [scanString?, hshort, hu, ih]
  | @plain c w hquote hslash hcontrol _ ih =>
    simp [scanString?, hslash, hcontrol, ih]

/-! ### Numbers -/

/-- The integer part of a number: digits without a leading zero. -/
def IsWhole (ds : List Char) : Prop := ds = ['0'] ∨ Digits ds ∧ ds.head? ≠ some '0'

/-- The fraction of a number: nothing, or a point and digits. -/
def IsFraction (cs : List Char) : Prop := cs = [] ∨ ∃ ds, Digits ds ∧ cs = '.' :: ds

/-- The exponent of a number: nothing, or its letter, an optional sign and digits. -/
def IsExponent (cs : List Char) : Prop :=
  cs = [] ∨ ∃ e sign ds, (e = 'e' ∨ e = 'E') ∧ (sign = [] ∨ sign = ['+'] ∨ sign = ['-'])
    ∧ Digits ds ∧ cs = e :: (sign ++ ds)

/-- The numbers of the grammar. -/
inductive IsNumber : List Char → Prop
  | intro {sign whole fraction exponent : List Char} (hsign : sign = [] ∨ sign = ['-'])
    (hwhole : IsWhole whole) (hfraction : IsFraction fraction) (hexponent : IsExponent exponent) :
    IsNumber (sign ++ whole ++ fraction ++ exponent)

/-- The text does not begin with a digit. -/
def EndsDigits (rest : List Char) : Prop := ∀ c ∈ rest.head?, ¬c.isDigit

/-- No number goes on into the text. -/
def EndsNumber (rest : List Char) : Prop :=
  ∀ c ∈ rest.head?, ¬c.isDigit ∧ c ≠ '.' ∧ c ≠ 'e' ∧ c ≠ 'E'

theorem EndsNumber.endsDigits {rest : List Char} (h : EndsNumber rest) : EndsDigits rest :=
  fun c hc => (h c hc).1

theorem scanDigits?_append {ds rest : List Char} (h : Digits ds) (hrest : EndsDigits rest) :
    scanDigits? (ds ++ rest) = some (ds, rest) := by
  have htake : rest.takeWhile Char.isDigit = [] := by
    cases rest with
    | nil => rfl
    | cons c cs => exact List.takeWhile_cons_of_neg (hrest c rfl)
  have hdrop : rest.dropWhile Char.isDigit = rest := by
    cases rest with
    | nil => rfl
    | cons c cs => exact List.dropWhile_cons_of_neg (hrest c rfl)
  obtain ⟨d, more, hds⟩ := List.exists_cons_of_ne_nil h.ne_nil
  rw [scanDigits?, List.takeWhile_append_of_pos h.isDigit, List.dropWhile_append_of_pos h.isDigit,
    htake, hdrop, List.append_nil, hds]

theorem scanWhole?_append {ds rest : List Char} (h : IsWhole ds) (hrest : EndsDigits rest) :
    scanWhole? (ds ++ rest) = some (ds, rest) := by
  obtain rfl | ⟨hdigits, hhead⟩ := h
  · have hany : rest.head?.any Char.isDigit = false := by
      cases rest with
      | nil => rfl
      | cons c cs => simpa using hrest c rfl
    simp [scanWhole?, hany]
  · obtain ⟨d, more, rfl, -, -⟩ := hdigits.exists_cons
    have hd : d ≠ '0' := by simpa using hhead
    rw [List.cons_append, scanWhole?, ← List.cons_append]
    · exact scanDigits?_append hdigits hrest
    · exact fun _ h => hd (List.cons.inj h).1

theorem scanFraction?_append {cs rest : List Char} (h : IsFraction cs) (hrest : EndsDigits rest)
    (hpoint : rest.head? ≠ some '.') : scanFraction? (cs ++ rest) = some (cs, rest) := by
  obtain rfl | ⟨ds, hds, rfl⟩ := h
  · cases rest with
    | nil => rfl
    | cons c cs =>
      have hc : c ≠ '.' := by simpa using hpoint
      simp [scanFraction?, hc]
  · simp [scanFraction?, scanDigits?_append hds hrest]

theorem scanExponent?_append {cs rest : List Char} (h : IsExponent cs) (hrest : EndsNumber rest) :
    scanExponent? (cs ++ rest) = some (cs, rest) := by
  obtain rfl | ⟨e, sign, ds, he, hsign, hds, rfl⟩ := h
  · cases rest with
    | nil => rfl
    | cons c cs =>
      have hc := hrest c rfl
      simp [scanExponent?, hc.2.2.1, hc.2.2.2]
  · have hscan := scanDigits?_append hds hrest.endsDigits
    have hletter : (e == 'e' || e == 'E') = true := by simpa using he
    obtain ⟨d, more, rfl, hd, -⟩ := hds.exists_cons
    have hplus : d ≠ '+' := by rintro rfl; exact absurd hd (by decide)
    have hminus : d ≠ '-' := by rintro rfl; exact absurd hd (by decide)
    rw [List.cons_append] at hscan
    obtain rfl | rfl | rfl := hsign <;>
      simp [scanExponent?, hletter, hplus, hminus, hscan]

/-- What follows the integer part of a number does not lengthen it. -/
theorem endsDigits_fraction {fraction exponent rest : List Char} (hfraction : IsFraction fraction)
    (hexponent : IsExponent exponent) (hrest : EndsNumber rest) :
    EndsDigits (fraction ++ (exponent ++ rest)) := by
  obtain rfl | ⟨ds, -, rfl⟩ := hfraction
  · obtain rfl | ⟨e, sign, ds, he, -, -, rfl⟩ := hexponent
    · exact hrest.endsDigits
    · obtain rfl | rfl := he <;> simp [EndsDigits]
  · simp [EndsDigits]

/-- What follows the fraction of a number does not lengthen it, nor is it one. -/
theorem endsDigits_exponent {exponent rest : List Char} (hexponent : IsExponent exponent)
    (hrest : EndsNumber rest) :
    EndsDigits (exponent ++ rest) ∧ (exponent ++ rest).head? ≠ some '.' := by
  obtain rfl | ⟨e, sign, ds, he, -, -, rfl⟩ := hexponent
  · exact ⟨hrest.endsDigits, fun h => (hrest '.' h).2.1 rfl⟩
  · obtain rfl | rfl := he <;> simp [EndsDigits]

/-- The integer part of a number does not begin with a sign. -/
theorem IsWhole.exists_cons {ds : List Char} (h : IsWhole ds) :
    ∃ d more, ds = d :: more ∧ d.isDigit := by
  obtain rfl | ⟨hdigits, -⟩ := h
  · exact ⟨'0', [], rfl, by decide⟩
  · obtain ⟨d, more, rfl, hd, -⟩ := hdigits.exists_cons
    exact ⟨d, more, rfl, hd⟩

/-- A number is scanned up to its end. -/
theorem scanNumber?_append {w rest : List Char} (h : IsNumber w) (hrest : EndsNumber rest) :
    scanNumber? (w ++ rest) = some (w, rest) := by
  obtain @⟨sign, whole, fraction, exponent, hsign, hwhole, hfraction, hexponent⟩ := h
  have hscanWhole := scanWhole?_append hwhole (endsDigits_fraction hfraction hexponent hrest)
  have hscanFraction := scanFraction?_append hfraction (endsDigits_exponent hexponent hrest).1
    (endsDigits_exponent hexponent hrest).2
  have hscanExponent := scanExponent?_append hexponent hrest
  obtain ⟨d, more, rfl, hd⟩ := hwhole.exists_cons
  have hminus : d ≠ '-' := by rintro rfl; exact absurd hd (by decide)
  rw [List.cons_append] at hscanWhole
  obtain rfl | rfl := hsign <;>
    simp [scanNumber?, hminus, hscanWhole, hscanFraction, hscanExponent]

/-- A number begins with a minus or a digit. -/
theorem IsNumber.exists_cons {w : List Char} (h : IsNumber w) :
    ∃ c more, w = c :: more ∧ (c = '-' ∨ c.isDigit) := by
  obtain @⟨sign, whole, fraction, exponent, hsign, hwhole, hfraction, hexponent⟩ := h
  obtain ⟨d, more, rfl, hd⟩ := hwhole.exists_cons
  obtain rfl | rfl := hsign
  · exact ⟨d, _, rfl, .inr hd⟩
  · exact ⟨'-', _, rfl, .inl rfl⟩

/-! ### White space -/

/-- White space of the grammar. -/
def Blank (cs : List Char) : Prop := ∀ c ∈ cs, isBlank c

theorem Blank.nil : Blank [] := fun _ h => absurd h List.not_mem_nil

theorem skipBlanks_append {blanks : List Char} (h : Blank blanks) (rest : List Char) :
    skipBlanks (blanks ++ rest) = skipBlanks rest :=
  List.dropWhile_append_of_pos h

theorem skipBlanks_skipBlanks (cs : List Char) : skipBlanks (skipBlanks cs) = skipBlanks cs :=
  List.dropWhile_idempotent isBlank cs

theorem skipBlanks_cons_of_neg {c : Char} (h : ¬isBlank c) (rest : List Char) :
    skipBlanks (c :: rest) = c :: rest :=
  List.dropWhile_cons_of_neg h

/-- No number goes on into white space and a mark of the grammar behind it. -/
theorem Blank.endsNumber {blanks : List Char} (h : Blank blanks) {rest : List Char}
    (hrest : EndsNumber rest) : EndsNumber (blanks ++ rest) := by
  cases blanks with
  | nil => exact hrest
  | cons b bs =>
    intro c hc
    obtain rfl : b = c := by simpa using hc
    have hblank : isBlank b := h b (by simp)
    simp only [isBlank, Bool.or_eq_true, beq_iff_eq] at hblank
    obtain ((rfl | rfl) | rfl) | rfl := hblank <;> decide

/-! ### Values -/

mutual

/-- The texts of a value, without white space around it. -/
inductive Spells : Json → List Char → Prop
  | null : Spells .null ['n', 'u', 'l', 'l']
  | true : Spells (.bool true) ['t', 'r', 'u', 'e']
  | false : Spells (.bool false) ['f', 'a', 'l', 's', 'e']
  | number {w : List Char} (h : IsNumber w) : Spells (.number w) w
  | string {w : List Char} (h : IsWritten w) : Spells (.string w) ('"' :: (w ++ ['"']))
  | emptyArray {blanks : List Char} (h : Blank blanks) :
    Spells (.array []) ('[' :: (blanks ++ [']']))
  | array {vs : List Json} {cs : List Char} (h : SpellsItems vs cs) :
    Spells (.array vs) ('[' :: (cs ++ [']']))
  | emptyObject {blanks : List Char} (h : Blank blanks) :
    Spells (.object []) ('\x7b' :: (blanks ++ ['\x7d']))
  | object {ms : List (List Char × Json)} {cs : List Char} (h : SpellsMembers ms cs) :
    Spells (.object ms) ('\x7b' :: (cs ++ ['\x7d']))

/-- The texts of one or more items with commas between them and white space around each. -/
inductive SpellsItems : List Json → List Char → Prop
  | one {v : Json} {before cs after : List Char} (hbefore : Blank before) (h : Spells v cs)
    (hafter : Blank after) : SpellsItems [v] (before ++ (cs ++ after))
  | more {v : Json} {vs : List Json} {before cs after more : List Char} (hbefore : Blank before)
    (h : Spells v cs) (hafter : Blank after) (hmore : SpellsItems vs more) :
    SpellsItems (v :: vs) (before ++ (cs ++ (after ++ ',' :: more)))

/-- The texts of one or more members with commas between them and white space around each name and
each value. -/
inductive SpellsMembers : List (List Char × Json) → List Char → Prop
  | one {name : List Char} {v : Json} {before colon space cs after : List Char}
    (hbefore : Blank before) (hname : IsWritten name) (hcolon : Blank colon) (hspace : Blank space)
    (h : Spells v cs) (hafter : Blank after) :
    SpellsMembers [(name, v)]
      (before ++ '"' :: (name ++ '"' :: (colon ++ ':' :: (space ++ (cs ++ after)))))
  | more {name : List Char} {v : Json} {ms : List (List Char × Json)}
    {before colon space cs after more : List Char} (hbefore : Blank before)
    (hname : IsWritten name) (hcolon : Blank colon) (hspace : Blank space) (h : Spells v cs)
    (hafter : Blank after) (hmore : SpellsMembers ms more) :
    SpellsMembers ((name, v) :: ms)
      (before ++ '"' :: (name ++ '"' ::
        (colon ++ ':' :: (space ++ (cs ++ (after ++ ',' :: more))))))

end

/-- The text of a value begins with a character that is neither white space nor closes anything. -/
theorem Spells.exists_cons {v : Json} {cs : List Char} (h : Spells v cs) :
    ∃ c more, cs = c :: more ∧ ¬isBlank c ∧ c ≠ ']' ∧ c ≠ '\x7d' := by
  cases h with
  | number hnumber =>
    obtain ⟨c, more, rfl, hc⟩ := hnumber.exists_cons
    refine ⟨c, more, rfl, ?_, ?_, ?_⟩
    · intro hblank
      simp only [isBlank, Bool.or_eq_true, beq_iff_eq] at hblank
      obtain ((rfl | rfl) | rfl) | rfl := hblank <;> exact absurd hc (by decide)
    · rintro rfl; exact absurd hc (by decide)
    · rintro rfl; exact absurd hc (by decide)
  | null => exact ⟨_, _, rfl, by decide⟩
  | true => exact ⟨_, _, rfl, by decide⟩
  | false => exact ⟨_, _, rfl, by decide⟩
  | string => exact ⟨_, _, rfl, by decide⟩
  | emptyArray => exact ⟨_, _, rfl, by decide⟩
  | array => exact ⟨_, _, rfl, by decide⟩
  | emptyObject => exact ⟨_, _, rfl, by decide⟩
  | object => exact ⟨_, _, rfl, by decide⟩

theorem Spells.length_pos {v : Json} {cs : List Char} (h : Spells v cs) : 0 < cs.length := by
  obtain ⟨c, more, rfl, -⟩ := h.exists_cons
  exact Nat.succ_pos _

theorem SpellsItems.length_pos {vs : List Json} {cs : List Char} (h : SpellsItems vs cs) :
    0 < cs.length := by
  obtain ⟨-, hv, -⟩ | ⟨-, hv, -, -⟩ := h <;>
    have hpos := hv.length_pos <;>
    simp only [List.length_append] <;> omega

theorem SpellsMembers.length_pos {ms : List (List Char × Json)} {cs : List Char}
    (h : SpellsMembers ms cs) : 0 < cs.length := by
  cases h <;> simp only [List.length_append, List.length_cons] <;> omega

/-! ### The value machine -/

section

variable {fuel : Nat} {rest : List Char}

/-- White space before a value is skipped. -/
theorem value?_skipBlanks (cs : List Char) : value? fuel (skipBlanks cs) = value? fuel cs := by
  cases fuel with
  | zero => rfl
  | succ fuel => simp only [value?, skipBlanks_skipBlanks]

theorem value?_blank_append {blanks : List Char} (h : Blank blanks) (cs : List Char) :
    value? fuel (blanks ++ cs) = value? fuel cs := by
  rw [← value?_skipBlanks, skipBlanks_append h, value?_skipBlanks]

theorem items?_skipBlanks (cs : List Char) : items? fuel (skipBlanks cs) = items? fuel cs := by
  cases fuel with
  | zero => rfl
  | succ fuel => simp only [items?, value?_skipBlanks]

theorem members?_skipBlanks (cs : List Char) :
    members? fuel (skipBlanks cs) = members? fuel cs := by
  cases fuel with
  | zero => rfl
  | succ fuel => simp only [members?, skipBlanks_skipBlanks]

theorem value?_number {w : List Char} (h : IsNumber w) (hrest : EndsNumber rest) :
    value? (fuel + 1) (w ++ rest) = some (.number w, rest) := by
  have hscan := scanNumber?_append h hrest
  obtain ⟨c, more, rfl, hc⟩ := h.exists_cons
  have hskip : skipBlanks (c :: (more ++ rest)) = c :: (more ++ rest) :=
    skipBlanks_cons_of_neg (by
      obtain ⟨d, ds, hd, hblank, -⟩ := (Spells.number h).exists_cons
      rwa [(List.cons.inj hd).1]) _
  rw [List.cons_append] at hscan ⊢
  rw [value?, hskip]
  split
  case h_7 => rw [hscan]; rfl
  all_goals
    rename_i heq
    obtain ⟨rfl, -⟩ := List.cons.inj heq
    exact absurd hc (by decide)

/-- No number goes on into white space and a mark of the grammar. -/
theorem Blank.endsNumber_mark {blanks : List Char} (h : Blank blanks) {c : Char}
    (hc : c ∈ [',', ']', '\x7d']) (rest : List Char) : EndsNumber (blanks ++ c :: rest) := by
  refine h.endsNumber fun d hd => ?_
  obtain rfl : c = d := by simpa using hd
  simp only [List.mem_cons, List.not_mem_nil, or_false] at hc
  obtain rfl | rfl | rfl := hc <;> decide

/-- White space and a mark of the grammar: the mark comes next. -/
theorem skipBlanks_append_mark {blanks : List Char} (h : Blank blanks) {c : Char}
    (hc : ¬isBlank c) (rest : List Char) : skipBlanks (blanks ++ c :: rest) = c :: rest := by
  rw [skipBlanks_append h, skipBlanks_cons_of_neg hc]

/-- The items of an array do not begin by closing it. -/
theorem skipBlanks_items {vs : List Json} {cs : List Char} (h : SpellsItems vs cs)
    (rest : List Char) :
    ∃ c more, skipBlanks (cs ++ rest) = c :: more ∧ c ≠ ']' := by
  obtain ⟨hbefore, hv, -⟩ | ⟨hbefore, hv, -, -⟩ := h <;>
    obtain ⟨c, more, rfl, hblank, hclose, -⟩ := hv.exists_cons <;>
    exact ⟨c, _, by
      simp only [List.append_assoc, List.cons_append, skipBlanks_append hbefore]
      exact skipBlanks_cons_of_neg hblank _, hclose⟩

/-- The members of an object do not begin by closing it. -/
theorem skipBlanks_members {ms : List (List Char × Json)} {cs : List Char} (h : SpellsMembers ms cs)
    (rest : List Char) :
    ∃ more, skipBlanks (cs ++ rest) = '"' :: more := by
  obtain ⟨hbefore, -⟩ | ⟨hbefore, -⟩ := h <;>
    exact ⟨_, by
      simp only [List.append_assoc, List.cons_append, skipBlanks_append hbefore]
      exact skipBlanks_cons_of_neg (by decide) _⟩

mutual

/-- The value machine reads the text of a value, up to its end and whatever follows that no number
goes on into. -/
theorem value?_append_of_spells {v : Json} {cs : List Char} {fuel : Nat} {rest : List Char} :
    Spells v cs → 2 * cs.length ≤ fuel + 1 → EndsNumber rest →
    value? fuel (cs ++ rest) = some (v, rest)
  | h, hfuel, hrest => by
    obtain ⟨fuel, rfl⟩ : ∃ n, fuel = n + 1 := by
      have hpos := h.length_pos
      exact ⟨fuel - 1, by omega⟩
    match h with
    | .null => rfl
    | .true => rfl
    | .false => rfl
    | .number hnumber => exact value?_number hnumber hrest
    | .string hw =>
      have hskip := skipBlanks_cons_of_neg (c := '"') (by decide)
      simp [value?, hskip, scanString?_append hw]
    | .emptyArray hblank =>
      have hskip := skipBlanks_cons_of_neg (c := '[') (by decide)
      have hclose := skipBlanks_append_mark hblank (c := ']') (by decide)
      simp [value?, hskip, hclose]
    | @Spells.array vs cs hitems =>
      have hskip := skipBlanks_cons_of_neg (c := '[') (by decide)
      obtain ⟨c, more, hmore, hc⟩ := skipBlanks_items hitems (']' :: rest)
      have hread : items? fuel (cs ++ ']' :: rest) = some (vs, rest) :=
        items?_append_of_spells hitems
        (by simp only [List.length_cons, List.length_append, List.length_nil] at hfuel; omega)
      rw [← items?_skipBlanks, hmore] at hread
      simp [value?, hskip, hmore, hc, hread]
    | .emptyObject hblank =>
      have hskip := skipBlanks_cons_of_neg (c := '\x7b') (by decide)
      have hclose := skipBlanks_append_mark hblank (c := '\x7d') (by decide)
      simp [value?, hskip, hclose]
    | @Spells.object ms cs hmembers =>
      have hskip := skipBlanks_cons_of_neg (c := '\x7b') (by decide)
      obtain ⟨more, hmore⟩ := skipBlanks_members hmembers ('\x7d' :: rest)
      have hread : members? fuel (cs ++ '\x7d' :: rest) = some (ms, rest) :=
        members?_append_of_spells hmembers
        (by simp only [List.length_cons, List.length_append, List.length_nil] at hfuel; omega)
      rw [← members?_skipBlanks, hmore] at hread
      simp [value?, hskip, hmore, hread]

/-- The value machine reads the items of an array and the bracket behind them. -/
theorem items?_append_of_spells {vs : List Json} {cs : List Char} {fuel : Nat} {rest : List Char} :
    SpellsItems vs cs → 2 * cs.length ≤ fuel →
    items? fuel (cs ++ ']' :: rest) = some (vs, rest)
  | h, hfuel => by
    obtain ⟨fuel, rfl⟩ : ∃ n, fuel = n + 1 := by
      have hpos := h.length_pos
      exact ⟨fuel - 1, by omega⟩
    match h with
    | @SpellsItems.one v before cs after hbefore hv hafter =>
      have hread : value? fuel (cs ++ (after ++ ']' :: rest)) = some (v, after ++ ']' :: rest) :=
        value?_append_of_spells hv (by simp only [List.length_append] at hfuel; omega)
          (hafter.endsNumber_mark (by decide) rest)
      have hclose := skipBlanks_append_mark hafter (c := ']') (by decide) rest
      simp only [List.append_assoc, items?, value?_blank_append hbefore, hread, hclose]
    | @SpellsItems.more v vs before cs after more hbefore hv hafter hmore =>
      have hread : value? fuel (cs ++ (after ++ ',' :: (more ++ ']' :: rest)))
          = some (v, after ++ ',' :: (more ++ ']' :: rest)) :=
        value?_append_of_spells hv (by simp only [List.length_append] at hfuel; omega)
          (hafter.endsNumber_mark (by decide) _)
      have hcomma := skipBlanks_append_mark hafter (c := ',') (by decide) (more ++ ']' :: rest)
      have hitems : items? fuel (more ++ ']' :: rest) = some (vs, rest) :=
        items?_append_of_spells hmore
          (by simp only [List.length_append, List.length_cons] at hfuel; omega)
      simp only [List.append_assoc, List.cons_append, items?, value?_blank_append hbefore, hread,
        hcomma, hitems, Option.map_some]

/-- The value machine reads the members of an object and the brace behind them. -/
theorem members?_append_of_spells {ms : List (List Char × Json)} {cs : List Char} {fuel : Nat}
    {rest : List Char} :
    SpellsMembers ms cs → 2 * cs.length ≤ fuel →
    members? fuel (cs ++ '\x7d' :: rest) = some (ms, rest)
  | h, hfuel => by
    obtain ⟨fuel, rfl⟩ : ∃ n, fuel = n + 1 := by
      have hpos := h.length_pos
      exact ⟨fuel - 1, by omega⟩
    match h with
    | @SpellsMembers.one name v before colon space cs after hbefore hname hcolon hspace hv
        hafter =>
      have hquote := skipBlanks_append_mark hbefore (c := '"') (by decide)
      have hscan := scanString?_append hname
      have hmark := skipBlanks_append_mark hcolon (c := ':') (by decide)
      have hread : value? fuel (cs ++ (after ++ '\x7d' :: rest))
          = some (v, after ++ '\x7d' :: rest) :=
        value?_append_of_spells hv
          (by simp only [List.length_append, List.length_cons] at hfuel; omega)
          (hafter.endsNumber_mark (by decide) rest)
      have hclose := skipBlanks_append_mark hafter (c := '\x7d') (by decide) rest
      simp only [List.append_assoc, List.cons_append, members?, hquote, hscan, hmark,
        value?_blank_append hspace, hread, hclose]
    | @SpellsMembers.more name v ms before colon space cs after more hbefore hname hcolon hspace hv
        hafter hmore =>
      have hquote := skipBlanks_append_mark hbefore (c := '"') (by decide)
      have hscan := scanString?_append hname
      have hmark := skipBlanks_append_mark hcolon (c := ':') (by decide)
      have hread : value? fuel (cs ++ (after ++ ',' :: (more ++ '\x7d' :: rest)))
          = some (v, after ++ ',' :: (more ++ '\x7d' :: rest)) :=
        value?_append_of_spells hv
          (by simp only [List.length_append, List.length_cons] at hfuel; omega)
          (hafter.endsNumber_mark (by decide) _)
      have hcomma := skipBlanks_append_mark hafter (c := ',') (by decide) (more ++ '\x7d' :: rest)
      have hmembers : members? fuel (more ++ '\x7d' :: rest) = some (ms, rest) :=
        members?_append_of_spells hmore
          (by simp only [List.length_append, List.length_cons] at hfuel; omega)
      simp only [List.append_assoc, List.cons_append, members?, hquote, hscan, hmark,
        value?_blank_append hspace, hread, hcomma, hmembers, Option.map_some]

end

end

/-- The reader of whole texts reads the text of a value with white space around it. -/
theorem parse?_of_spells {v : Json} {before cs after : List Char} (hbefore : Blank before)
    (h : Spells v cs) (hafter : Blank after) : parse? (before ++ cs ++ after) = some v := by
  have hnil : EndsNumber [] := by simp [EndsNumber]
  have hends : EndsNumber after := by simpa using hafter.endsNumber hnil
  have hread : value? (2 * (before ++ cs ++ after).length + 2) (cs ++ after) = some (v, after) :=
    value?_append_of_spells h (by simp only [List.length_append]; omega) hends
  have hskip : skipBlanks after = [] := by
    simpa [skipBlanks] using skipBlanks_append hafter []
  rw [parse?, List.append_assoc, value?_blank_append hbefore, ← List.append_assoc, hread]
  simp only [hskip, List.isEmpty_nil, if_true]

end RunLedger.Json
