import RunLedger.Json.Codec
import RunLedger.Proofs.Json.Grammar

/-!
# Printed values are read back

A value whose numbers and strings are written as the grammar has them is spelled by both of its
printed forms, the compact one and the one over lines, so each of them is read back as that value.
Escaped strings and integers in their usual spelling are written so, and denote the string and the
integer they were made from.

## Main definitions

* `Json.WellWritten`: all numbers and strings of a value are of the grammar.

## Main results

* `Json.spells_print`, `Json.spells_printLines`: the printed forms spell the value.
* `Json.parse?_print`, `Json.parse?_printLines`: they are read back.
* `Json.text?_ofString`, `Json.int64?_ofInt`, `Json.nat64?_ofInt`: a string and an integer are
  decoded from their written forms.
-/

namespace RunLedger.Json

/-- Numbers and strings are written as the grammar has them, throughout the value. -/
inductive WellWritten : Json → Prop
  | null : WellWritten .null
  | bool (b : Bool) : WellWritten (.bool b)
  | number {w : List Char} (h : IsNumber w) : WellWritten (.number w)
  | string {w : List Char} (h : IsWritten w) : WellWritten (.string w)
  | array {vs : List Json} (h : ∀ v ∈ vs, WellWritten v) : WellWritten (.array vs)
  | object {ms : List (List Char × Json)} (hnames : ∀ m ∈ ms, IsWritten m.1)
    (h : ∀ m ∈ ms, WellWritten m.2) : WellWritten (.object ms)

/-! ### The compact form -/

theorem spellsItems_print {v : Json} {vs : List Json} (h : ∀ w ∈ v :: vs, Spells w (print w)) :
    SpellsItems (v :: vs) (printItems (v :: vs)) := by
  induction vs generalizing v with
  | nil => simpa [printItems] using SpellsItems.one Blank.nil (h v (by simp)) Blank.nil
  | cons w ws ih =>
    have hmore := ih (v := w) fun u hu => h u (List.mem_cons_of_mem v hu)
    simpa [printItems] using SpellsItems.more Blank.nil (h v (by simp)) Blank.nil hmore

theorem spellsMembers_print {m : List Char × Json} {ms : List (List Char × Json)}
    (hnames : ∀ p ∈ m :: ms, IsWritten p.1) (h : ∀ p ∈ m :: ms, Spells p.2 (print p.2)) :
    SpellsMembers (m :: ms) (printMembers (m :: ms)) := by
  induction ms generalizing m with
  | nil =>
    simpa [printMembers, quoted] using SpellsMembers.one Blank.nil (hnames m (by simp)) Blank.nil
      Blank.nil (h m (by simp)) Blank.nil
  | cons p ps ih =>
    have hmore := ih (m := p) (fun q hq => hnames q (List.mem_cons_of_mem m hq))
      fun q hq => h q (List.mem_cons_of_mem m hq)
    simpa [printMembers, quoted] using SpellsMembers.more Blank.nil (hnames m (by simp)) Blank.nil
      Blank.nil (h m (by simp)) Blank.nil hmore

/-- The compact form of a value spells it. -/
theorem spells_print {v : Json} (h : WellWritten v) : Spells v (print v) := by
  induction h with
  | null => exact .null
  | bool b => cases b <;> constructor
  | number h => exact .number h
  | string h => exact .string h
  | @array vs _ ih =>
    cases vs with
    | nil => exact .emptyArray Blank.nil
    | cons v vs => exact .array (spellsItems_print ih)
  | @object ms hnames _ ih =>
    cases ms with
    | nil => exact .emptyObject Blank.nil
    | cons m ms => exact .object (spellsMembers_print hnames ih)

/-! ### The form over lines -/

theorem blank_newLine (level : Nat) : Blank (newLine level) := by
  simp only [Blank, newLine, List.mem_cons, List.mem_replicate]
  rintro c (rfl | ⟨-, rfl⟩) <;> decide

theorem spellsItems_printLines {level : Nat} {v : Json} {vs : List Json}
    (h : ∀ w ∈ v :: vs, Spells w (printLines (level + 1) w)) :
    SpellsItems (v :: vs) (newLine (level + 1)
      ++ (printLines (level + 1) v ++ (printMoreItems level vs ++ newLine level))) := by
  induction vs generalizing v with
  | nil => exact .one (blank_newLine _) (h v (by simp)) (blank_newLine _)
  | cons w ws ih =>
    have hmore := ih (v := w) fun u hu => h u (List.mem_cons_of_mem v hu)
    simpa [printMoreItems] using
      SpellsItems.more (blank_newLine _) (h v (by simp)) Blank.nil hmore

/-- The space behind a colon. -/
theorem blank_space : Blank [' '] := by
  simp only [Blank, List.mem_singleton]
  rintro c rfl
  decide

theorem spellsMembers_printLines {level : Nat} {m : List Char × Json}
    {ms : List (List Char × Json)} (hnames : ∀ p ∈ m :: ms, IsWritten p.1)
    (h : ∀ p ∈ m :: ms, Spells p.2 (printLines (level + 1) p.2)) :
    SpellsMembers (m :: ms) (newLine (level + 1) ++ (quoted m.1 ++ ':' :: ' ' ::
      (printLines (level + 1) m.2 ++ (printMoreMembers level ms ++ newLine level)))) := by
  induction ms generalizing m with
  | nil =>
    simpa [printMoreMembers, quoted] using SpellsMembers.one (blank_newLine _)
      (hnames m (by simp)) Blank.nil blank_space (h m (by simp)) (blank_newLine _)
  | cons p ps ih =>
    have hmore := ih (m := p) (fun q hq => hnames q (List.mem_cons_of_mem m hq))
      fun q hq => h q (List.mem_cons_of_mem m hq)
    simpa [printMoreMembers, quoted] using SpellsMembers.more (blank_newLine _)
      (hnames m (by simp)) Blank.nil blank_space (h m (by simp)) Blank.nil hmore

/-- The form of a value over lines spells it, at every level of indentation. -/
theorem spells_printLines {v : Json} (h : WellWritten v) (level : Nat) :
    Spells v (printLines level v) := by
  induction h generalizing level with
  | null => exact .null
  | bool b => cases b <;> constructor
  | number h => exact .number h
  | string h => exact .string h
  | @array vs _ ih =>
    cases vs with
    | nil => exact .emptyArray Blank.nil
    | cons v vs =>
      simpa [printLines] using Spells.array (spellsItems_printLines fun w hw => ih w hw (level + 1))
  | @object ms hnames _ ih =>
    cases ms with
    | nil => exact .emptyObject Blank.nil
    | cons m ms =>
      simpa [printLines] using
        Spells.object (spellsMembers_printLines hnames fun p hp => ih p hp (level + 1))

theorem parse?_print {v : Json} (h : WellWritten v) : parse? (print v) = some v := by
  simpa using parse?_of_spells Blank.nil (spells_print h) Blank.nil

/-- A value is read back from its lines, also with white space behind them. -/
theorem parse?_printLines {v : Json} (h : WellWritten v) {after : List Char}
    (hafter : Blank after) : parse? (printLines 0 v ++ after) = some v := by
  simpa using parse?_of_spells Blank.nil (spells_printLines h 0) hafter

/-! ### Strings -/

/-- The codes of control characters are those of their hexadecimal digits. -/
theorem hex4?_control {n : Nat} (hn : n < 0x20) :
    hex4? '0' '0' (Nat.digitChar (n / 16)) (Nat.digitChar (n % 16)) = some n := by
  revert n
  decide

/-- The ways in which one character is written. -/
theorem escapeChar_cases (c : Char) :
    (∃ d, shortEscape? d = some c ∧ escapeChar c = ['\\', d])
    ∨ (∃ a b, hex4? '0' '0' a b = some c.toNat ∧ c.toNat < 0x20
      ∧ escapeChar c = ['\\', 'u', '0', '0', a, b])
    ∨ (c ≠ '"' ∧ c ≠ '\\' ∧ 0x20 ≤ c.toNat ∧ escapeChar c = [c]) := by
  unfold escapeChar
  split
  · rename_i h; subst h; exact .inl ⟨'"', rfl, rfl⟩
  split
  · rename_i h; subst h; exact .inl ⟨'\\', rfl, rfl⟩
  split
  · rename_i h; subst h; exact .inl ⟨'b', rfl, rfl⟩
  split
  · rename_i h; subst h; exact .inl ⟨'f', rfl, rfl⟩
  split
  · rename_i h; subst h; exact .inl ⟨'n', rfl, rfl⟩
  split
  · rename_i h; subst h; exact .inl ⟨'r', rfl, rfl⟩
  split
  · rename_i h; subst h; exact .inl ⟨'t', rfl, rfl⟩
  split
  · rename_i h
    exact .inr (.inl ⟨_, _, hex4?_control h, h, rfl⟩)
  · rename_i hquote hslash _ _ _ _ _ hcontrol
    exact .inr (.inr ⟨hquote, hslash, by omega, rfl⟩)

theorem isWritten_escape (cs : List Char) : IsWritten (escape cs) := by
  induction cs with
  | nil => exact .nil
  | cons c cs ih =>
    rw [escape, List.flatMap_cons]
    obtain ⟨d, hd, hc⟩ | ⟨a, b, hcode, -, hc⟩ | ⟨hquote, hslash, hcontrol, hc⟩ :=
      escapeChar_cases c <;> rw [hc]
    · exact .short (by simp [hd]) ih
    · exact .code (by simp [hcode]) ih
    · exact .plain hquote hslash hcontrol ih

/-- The escaped form of a text denotes that text. -/
theorem unescape?_escape (cs : List Char) : unescape? (escape cs) = some cs := by
  induction cs with
  | nil => rfl
  | cons c cs ih =>
    have hcons : escape (c :: cs) = escapeChar c ++ escape cs := List.flatMap_cons
    rw [hcons]
    obtain ⟨d, hd, hc⟩ | ⟨a, b, hcode, hcontrol, hc⟩ | ⟨hquote, hslash, hcontrol, hc⟩ :=
      escapeChar_cases c <;> rw [hc]
    · have hu : d ≠ 'u' := by rintro rfl; simp [shortEscape?] at hd
      simp [unescape?, hd, hu, ih]
    · have hlt : c.toNat < 0xD800 := by omega
      simp [unescape?, hcode, hlt, ih]
    · simp [unescape?, hslash, ih]

theorem wellWritten_ofString (s : String) : (ofString s).WellWritten :=
  .string (isWritten_escape s.toList)

theorem text?_ofString (s : String) : text? (ofString s) = some s := by
  simp [text?, ofString, unescape?_escape]

/-! ### Integers -/

theorem isWhole_toDigits (n : Nat) : IsWhole (Nat.toDigits 10 n) := by
  obtain rfl | hn := Nat.eq_zero_or_pos n
  · exact .inl (Nat.toDigits_zero 10)
  · exact .inr ⟨Text.digits_toDigits n, Text.head?_toDigits_ne_zero hn⟩

theorem wellWritten_ofInt (n : Int) : (ofInt n).WellWritten := by
  refine .number ?_
  rw [Text.toList_toString_int]
  have hsign : (if n < 0 then ['-'] else []) = [] ∨ (if n < 0 then ['-'] else []) = ['-'] := by
    split <;> simp
  simpa using IsNumber.intro hsign (isWhole_toDigits n.natAbs) (.inl rfl) (.inl rfl)

/-- No integer is spelled as zero with a minus. -/
theorem toString_ne_minusZero (n : Int) : (toString n).toList ≠ ['-', '0'] := by
  intro h
  have hread := Text.readInt?_toString n
  have hzero : Text.readInt? ['-', '0'] = some 0 := by decide
  rw [h, hzero] at hread
  obtain rfl := Option.some.inj hread
  exact absurd h (by decide)

theorem int64?_ofInt {n : Int} (h : inInt64 n) : int64? (ofInt n) = some n := by
  simp only [int64?, ofInt, toString_ne_minusZero, if_false, Text.readInt64?_toString h]

theorem nat64?_ofInt {n : Nat} (h : n < 0x10000000000000000) : nat64? (ofInt n) = some n := by
  have hlist := Text.toList_toString_int n
  rw [if_neg (by omega), List.nil_append, Int.natAbs_natCast] at hlist
  simp only [nat64?, ofInt, hlist, Text.readNat?_toDigits, Option.filter_some, decide_eq_true_eq, h,
    if_true]

end RunLedger.Json
