import RunLedger.Proofs.Text.Digits
import RunLedger.Proofs.Text.Lowercase
import RunLedger.Proofs.Text.Trimming
import RunLedger.Rules

/-!
# Aliases and stages in text

An alias is one or more of the characters A–Z, a–z, 0–9, underscore and dash. Two forms of it are
reserved: the word latest, and a v with digits behind it, as the number of a version is written. A
text has at most one of the forms, so that the order of the checks does not matter. The stages that
a caller may name are four words. A text names a stage if it is the word up to white space around it
and up to letter case. Letter case is that of all characters; yet none outside the Latin letters
can stand for a letter of these words.

## Main definitions

* `Rules.IsAliasCharacter`: the characters of an alias.
* `Rules.oneOf`, `Rules.oneOrMore`: the languages of a character and of a repetition.
* `Rules.aliasPattern`, `Rules.versionAliasPattern`: the patterns of an alias and of its form that
  is reserved for versions.
* `Rules.Spells`: a word up to white space around it and up to the case of the Latin letters.

## Main results

* `Rules.mem_aliasPattern`, `Rules.mem_versionAliasPattern`: the patterns in plain terms.
* `VersionStage.ofText?_eq_some_iff`: which text names which stage.
* `aliases_and_stages_follow_plain_rules`: both grammars, for all texts.
-/

namespace RunLedger

open Text

namespace Rules

/-! ### Patterns -/

/-- The characters of an alias. -/
def IsAliasCharacter (c : Char) : Prop :=
  'A' ≤ c ∧ c ≤ 'Z' ∨ 'a' ≤ c ∧ c ≤ 'z' ∨ '0' ≤ c ∧ c ≤ '9' ∨ c = '_' ∨ c = '-'

instance : DecidablePred IsAliasCharacter := fun _ => inferInstanceAs (Decidable (_ ∨ _))

theorem isAliasChar_iff {c : Char} : isAliasChar c ↔ IsAliasCharacter c := by
  simp only [isAliasChar, IsAliasCharacter, Char.isAlphanum, Char.isAlpha, Char.isUpper,
    Char.isLower, Char.isDigit, Char.le_def]
  grind

theorem isDigit_iff {c : Char} : c.isDigit ↔ '0' ≤ c ∧ c ≤ '9' := by
  simp [Char.isDigit, Char.le_def]

section Patterns

open scoped Computability

/-- The texts of a single character with a property. -/
def oneOf (p : Char → Prop) : Language Char := {w | ∃ c, p c ∧ w = [c]}

/-- One or more texts of a language, one behind the other. -/
def oneOrMore (l : Language Char) : Language Char := l * l∗

/-- The pattern of an alias: one or more of its characters and nothing else. -/
def aliasPattern : Language Char := oneOrMore (oneOf IsAliasCharacter)

/-- The pattern of an alias that is reserved for versions: a v, then one or more digits and nothing
else. -/
def versionAliasPattern : Language Char :=
  oneOf (fun c => c = 'v' ∨ c = 'V') * oneOrMore (oneOf fun c => '0' ≤ c ∧ c ≤ '9')

theorem mem_kstar_oneOf {p : Char → Prop} {w : List Char} : w ∈ (oneOf p)∗ ↔ ∀ c ∈ w, p c := by
  rw [Language.mem_kstar]
  constructor
  · rintro ⟨parts, rfl, hparts⟩ c hc
    obtain ⟨part, hpart, hc⟩ := List.mem_flatten.mp hc
    obtain ⟨d, hd, rfl⟩ := hparts part hpart
    rwa [List.mem_singleton.mp hc]
  · intro h
    refine ⟨w.map fun c => [c], ?_, fun part hpart => ?_⟩
    · rw [← List.flatMap_def, List.flatMap_singleton']
    · obtain ⟨c, hc, rfl⟩ := List.mem_map.mp hpart
      exact ⟨c, h c hc, rfl⟩

theorem mem_oneOf_mul {p : Char → Prop} {l : Language Char} {w : List Char} :
    w ∈ oneOf p * l ↔ ∃ c rest, w = c :: rest ∧ p c ∧ rest ∈ l := by
  rw [Language.mem_mul]
  constructor
  · rintro ⟨-, ⟨c, hc, rfl⟩, rest, hrest, rfl⟩
    exact ⟨c, rest, rfl, hc, hrest⟩
  · rintro ⟨c, rest, rfl, hc, hrest⟩
    exact ⟨[c], ⟨c, hc, rfl⟩, rest, hrest, rfl⟩

theorem mem_oneOrMore_oneOf {p : Char → Prop} {w : List Char} :
    w ∈ oneOrMore (oneOf p) ↔ w ≠ [] ∧ ∀ c ∈ w, p c := by
  rw [oneOrMore, mem_oneOf_mul]
  cases w with
  | nil => simp
  | cons c w => simp [mem_kstar_oneOf]

theorem mem_aliasPattern {w : List Char} :
    w ∈ aliasPattern ↔ w ≠ [] ∧ ∀ c ∈ w, IsAliasCharacter c :=
  mem_oneOrMore_oneOf

theorem mem_versionAliasPattern {w : List Char} :
    w ∈ versionAliasPattern ↔ ∃ ds, Digits ds ∧ (w = 'v' :: ds ∨ w = 'V' :: ds) := by
  rw [versionAliasPattern, mem_oneOf_mul]
  constructor
  · rintro ⟨c, ds, rfl, hc, hds⟩
    obtain ⟨hne, hds⟩ := mem_oneOrMore_oneOf.mp hds
    exact ⟨ds, ⟨hne, fun d hd => isDigit_iff.mpr (hds d hd)⟩, by grind⟩
  · rintro ⟨ds, hds, hw⟩
    have hrest : ds ∈ oneOrMore (oneOf fun c => '0' ≤ c ∧ c ≤ '9') :=
      mem_oneOrMore_oneOf.mpr ⟨hds.ne_nil, fun d hd => isDigit_iff.mp (hds.isDigit d hd)⟩
    rcases hw with rfl | rfl
    · exact ⟨'v', ds, rfl, .inl rfl, hrest⟩
    · exact ⟨'V', ds, rfl, .inr rfl, hrest⟩

end Patterns

/-! ### Aliases -/

/-- The name is empty, or one of its characters is not that of an alias. -/
def IsMalformed (name : String) : Prop := name = "" ∨ ∃ c ∈ name.toList, ¬ IsAliasCharacter c

/-- The name is the word latest, up to the case of the Latin letters. -/
def IsLatest (name : String) : Prop := List.Forall₂ SameUpToCase name.toList "latest".toList

/-- The name is a v with one or more digits behind it. -/
def IsVersionForm (name : String) : Prop :=
  ∃ ds, Digits ds ∧ (name.toList = 'v' :: ds ∨ name.toList = 'V' :: ds)

variable {name : String}

theorem isMalformed_iff :
    (name.toList.isEmpty || !name.toList.all isAliasChar) = true ↔ IsMalformed name := by
  simp [IsMalformed, ← isAliasChar_iff]

theorem sameLetters_latest_iff : sameLetters name.toList "latest".toList ↔ IsLatest name := by
  rw [sameLetters, beq_iff_eq, map_toLower_eq_iff, IsLatest]

theorem isVersionAlias_iff : isVersionAlias name.toList ↔ IsVersionForm name := by
  rw [IsVersionForm]
  constructor
  · intro h
    match hname : name.toList with
    | [] | [_] => simp [hname, isVersionAlias] at h
    | c :: d :: ds =>
      simp only [hname, isVersionAlias, Bool.and_eq_true, Bool.or_eq_true, beq_iff_eq,
        List.all_eq_true] at h
      exact ⟨d :: ds, ⟨List.cons_ne_nil d ds, h.2⟩, by grind⟩
  · rintro ⟨ds, hds, hname⟩
    obtain ⟨d, ds, rfl⟩ := List.exists_cons_of_ne_nil hds.ne_nil
    have hall : (d :: ds).all Char.isDigit := List.all_eq_true.mpr hds.isDigit
    rcases hname with hname | hname <;> rw [hname, isVersionAlias, hall] <;> rfl

theorem IsAliasCharacter.of_sameUpToCase {c d : Char} (hd : IsAliasCharacter d)
    (h : SameUpToCase c d) : IsAliasCharacter c := by
  rw [IsAliasCharacter] at *
  simp only [SameUpToCase, Char.isUpper] at h
  grind [Char.le_def, UInt32.le_iff_toNat_le, Char.toNat]

theorem forall_isAliasCharacter {cs ds : List Char} (h : List.Forall₂ SameUpToCase cs ds)
    (hds : ∀ d ∈ ds, IsAliasCharacter d) : ∀ c ∈ cs, IsAliasCharacter c := by
  induction h with
  | nil => exact hds
  | cons hsame _ ih =>
    rw [List.forall_mem_cons] at hds ⊢
    exact ⟨hds.1.of_sameUpToCase hsame, ih hds.2⟩

theorem IsLatest.not_isMalformed (h : IsLatest name) : ¬ IsMalformed name := by
  rintro (rfl | ⟨c, hc, hbad⟩)
  · cases h
  · have hword : "latest".toList.all isAliasChar = true := rfl
    exact hbad (forall_isAliasCharacter h
      (fun d hd => isAliasChar_iff.mp (List.all_eq_true.mp hword d hd)) c hc)

theorem IsVersionForm.not_isMalformed (h : IsVersionForm name) : ¬ IsMalformed name := by
  obtain ⟨ds, hds, hname⟩ := h
  rintro (rfl | ⟨c, hc, hbad⟩)
  · simp at hname
  · refine hbad (isAliasChar_iff.mp ?_)
    have hletter : c = 'v' ∨ c = 'V' ∨ c ∈ ds := by grind
    rcases hletter with rfl | rfl | hdigit
    · rfl
    · rfl
    · simp [isAliasChar, Char.isAlphanum, hds.isDigit c hdigit]

/-- The reserved forms begin with different letters. -/
theorem IsLatest.not_isVersionForm (h : IsLatest name) : ¬ IsVersionForm name := by
  rintro ⟨ds, -, hname | hname⟩
  · rw [IsLatest, hname] at h
    exact absurd (List.forall₂_cons.mp h).1 (by decide)
  · rw [IsLatest, hname] at h
    exact absurd (List.forall₂_cons.mp h).1 (by decide)

/-- A name violates the rule in one of three ways, or it keeps it. -/
theorem aliasName_cases (name : String) :
    IsMalformed name ∧ aliasName name = .error (.invalidAliasSyntax name) ∨
      IsLatest name ∧ aliasName name = .error .reservedLatestAlias ∨
      IsVersionForm name ∧ aliasName name = .error (.reservedVersionAlias name) ∨
      (¬ IsMalformed name ∧ ¬ IsLatest name ∧ ¬ IsVersionForm name) ∧ aliasName name = .ok () := by
  rw [aliasName]
  split_ifs with hbad hlatest hversion
  · exact .inl ⟨isMalformed_iff.mp hbad, rfl⟩
  · exact .inr (.inl ⟨sameLetters_latest_iff.mp hlatest, rfl⟩)
  · exact .inr (.inr (.inl ⟨isVersionAlias_iff.mp hversion, rfl⟩))
  · exact .inr (.inr (.inr ⟨⟨mt isMalformed_iff.mpr hbad, mt sameLetters_latest_iff.mpr hlatest,
      mt isVersionAlias_iff.mpr hversion⟩, rfl⟩))

/-! ### Stages -/

/-- The text is the word up to white space around it and up to the case of the Latin letters. -/
def Spells (text word : String) : Prop :=
  ∃ core, IsCore core text.toList ∧ List.Forall₂ SameUpToCase core word.toList

end Rules

namespace VersionStage

open Rules

theorem lowercase_stored : ∀ stage ∈ named,
    lowercase stage.stored.toList = stage.stored.toList.map Char.toLower := by
  decide +kernel

/-- The stages that a caller may name are written in Latin letters without a k. -/
theorem all_stored : ∀ stage ∈ named,
    stage.stored.toList.all fun c => decide (c.toNat < 128 ∧ c.toLower ≠ 'k') := by
  decide +kernel

/-- The stages that a caller may name have different lower cases. -/
theorem find?_named : ∀ stage ∈ named,
    named.find? (fun other => lowercase other.stored.toList == lowercase stage.stored.toList) =
      some stage := by
  decide +kernel

/-- Whichever lower case of the text is taken, it is that of a stage if the text spells the stage in
Latin letters. -/
theorem eq_lowercase_stored_iff {stage : VersionStage} (h : stage ∈ named) {core lower : List Char}
    (hlower : IsLowercase core lower) :
    lower = lowercase stage.stored.toList ↔
      List.Forall₂ SameUpToCase core stage.stored.toList := by
  rw [lowercase_stored stage h, hlower.eq_iff]
  exact fun c hc => of_decide_eq_true (List.all_eq_true.mp (all_stored stage h) c hc)

theorem ofText?_eq_some_iff {text : String} {stage : VersionStage} :
    ofText? text = some stage ↔ stage ∈ named ∧ Spells text stage.stored := by
  simp only [Spells, isCore_iff, exists_eq_left']
  constructor
  · intro h
    have hmem := List.mem_of_find?_eq_some h
    have hsame : lowercase stage.stored.toList = lowercase (trim text.toList) := by
      simpa using List.find?_some h
    exact ⟨hmem, (eq_lowercase_stored_iff hmem (isLowercase_lowercase _)).mp hsame.symm⟩
  · rintro ⟨hmem, hspells⟩
    rw [ofText?, (eq_lowercase_stored_iff hmem (isLowercase_lowercase _)).mpr hspells]
    exact find?_named stage hmem

end VersionStage

namespace Rules

theorem stage_eq_ok_iff {text : String} {stage : VersionStage} :
    Rules.stage text = .ok stage ↔ stage ∈ VersionStage.named ∧ Spells text stage.stored := by
  rw [← VersionStage.ofText?_eq_some_iff, Rules.stage]
  cases VersionStage.ofText? text <;> simp

theorem stage_cases (text : String) :
    (∃ stage, Rules.stage text = .ok stage) ∨ Rules.stage text = .error (.invalidStage text) := by
  rw [Rules.stage]
  cases VersionStage.ofText? text with
  | none => exact .inr rfl
  | some stage => exact .inl ⟨stage, rfl⟩

theorem stage_eq_error_iff {text : String} :
    Rules.stage text = .error (.invalidStage text) ↔
      ∀ stage ∈ VersionStage.named, ¬ Spells text stage.stored := by
  constructor
  · intro h stage hmem hspells
    rw [stage_eq_ok_iff.mpr ⟨hmem, hspells⟩] at h
    cases h
  · intro h
    refine (stage_cases text).resolve_left ?_
    rintro ⟨stage, hstage⟩
    obtain ⟨hmem, hspells⟩ := stage_eq_ok_iff.mp hstage
    exact h stage hmem hspells

/-- Lower case may be taken of all characters of the text, in whichever way. -/
theorem stage_eq_ok_iff_eq_lowercase {text : String} {core lower : List Char}
    (hcore : IsCore core text.toList) (hlower : IsLowercase core lower) {stage : VersionStage}
    (hstage : stage ∈ VersionStage.named) :
    Rules.stage text = .ok stage ↔ lower = lowercase stage.stored.toList := by
  rw [stage_eq_ok_iff, VersionStage.eq_lowercase_stored_iff hstage hlower]
  simp [Spells, isCore_iff, isCore_iff.mp hcore, hstage]

end Rules

/-- **The rules for aliases and stages are plain rules on Latin letters.** A name that the pattern
of an alias does not match has an invalid syntax. The word latest is reserved, and so is a v with
digits behind it, and every other name in the characters of an alias will do. A text gives a stage
if it spells one of the four words, also where lower case is taken of all its characters, and no
text gives the mark of a soft deletion. -/
theorem aliases_and_stages_follow_plain_rules :
    (∀ name : String,
      (name.toList ∈ Rules.aliasPattern ↔ ¬ Rules.IsMalformed name) ∧
      (name.toList ∈ Rules.versionAliasPattern ↔ Rules.IsVersionForm name) ∧
      (Rules.aliasName name = .error (.invalidAliasSyntax name) ↔ Rules.IsMalformed name) ∧
      (Rules.aliasName name = .error .reservedLatestAlias ↔
        ¬ Rules.IsMalformed name ∧ Rules.IsLatest name) ∧
      (Rules.aliasName name = .error (.reservedVersionAlias name) ↔
        ¬ Rules.IsMalformed name ∧ ¬ Rules.IsLatest name ∧ Rules.IsVersionForm name) ∧
      (Rules.aliasName name = .ok () ↔
        ¬ Rules.IsMalformed name ∧ ¬ Rules.IsLatest name ∧ ¬ Rules.IsVersionForm name)) ∧
    ∀ text : String,
      (Rules.stage text = .ok .none ↔ Rules.Spells text "None") ∧
      (Rules.stage text = .ok .staging ↔ Rules.Spells text "Staging") ∧
      (Rules.stage text = .ok .production ↔ Rules.Spells text "Production") ∧
      (Rules.stage text = .ok .archived ↔ Rules.Spells text "Archived") ∧
      Rules.stage text ≠ .ok .deletedInternal ∧
      (Rules.stage text = .error (.invalidStage text) ↔
        ¬ (Rules.Spells text "None" ∨ Rules.Spells text "Staging" ∨
          Rules.Spells text "Production" ∨ Rules.Spells text "Archived")) ∧
      ∀ core lower, IsCore core text.toList → IsLowercase core lower →
        ∀ stage ∈ VersionStage.named,
          Rules.stage text = .ok stage ↔ lower = lowercase stage.stored.toList := by
  refine ⟨fun name => ⟨?_, Rules.mem_versionAliasPattern, ?_⟩, fun text => ?_⟩
  · simp [Rules.mem_aliasPattern, Rules.IsMalformed]
  · have hlatest := @Rules.IsLatest.not_isMalformed name
    have hversion := @Rules.IsVersionForm.not_isMalformed name
    have hforms := @Rules.IsLatest.not_isVersionForm name
    rcases Rules.aliasName_cases name with h | h | h | h <;> grind
  · refine ⟨?_, ?_, ?_, ?_, ?_, ?_, fun core lower hcore hlower stage hstage =>
      Rules.stage_eq_ok_iff_eq_lowercase hcore hlower hstage⟩
    all_goals
      simp [Rules.stage_eq_ok_iff, Rules.stage_eq_error_iff, VersionStage.named,
        VersionStage.stored]

/-- The word in capitals with white space around it gives the stage. A line break behind an alias
and digits of another script do not count among the characters of an alias. -/
theorem capitals_give_stage :
    Rules.stage "\u2003PRODUCTION\n" = .ok .production ∧
      Rules.aliasName "latest\n" = .error (.invalidAliasSyntax "latest\n") ∧
      Rules.aliasName "v٣" = .error (.invalidAliasSyntax "v٣") := by
  obtain ⟨halias, hstage⟩ := aliases_and_stages_follow_plain_rules
  obtain ⟨-, -, -, -, -, -, hlower⟩ := hstage "\u2003PRODUCTION\n"
  have hcore : IsCore "PRODUCTION".toList "\u2003PRODUCTION\n".toList :=
    isCore_iff.mpr (by decide +kernel)
  refine ⟨?_, (halias "latest\n").2.2.1.mpr (.inr ⟨'\n', by decide, by decide⟩),
    (halias "v٣").2.2.1.mpr (.inr ⟨'٣', by decide, by decide⟩)⟩
  exact (hlower _ _ hcore (isLowercase_lowercase _) .production (by decide)).mpr
    (by decide +kernel)

end RunLedger
