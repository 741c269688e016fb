import RunLedger.Json.Value

/-!
# Reading JSON

A text is one value with white space around it, where white space is the four characters of the
JSON grammar. Strings hold no raw control character and only known escapes; numbers have no
leading zero.

## Main definitions

* `Json.scanString?`, `Json.scanNumber?`: the written form of a string or number at the start of a
  text, and the rest.
* `Json.value?`, `Json.items?`, `Json.members?`: the value machine, with a bound on its depth.
* `Json.parse?`: a whole text.
-/

namespace RunLedger.Json

/-- The white space of the JSON grammar. -/
def isBlank (c : Char) : Bool := c == ' ' || c == '\t' || c == '\n' || c == '\r'

/-- The text from its first character that is not white space. -/
def skipBlanks (cs : List Char) : List Char := cs.dropWhile isBlank

/-- The written form of a string up to its closing quote, and what follows the quote. -/
def scanString? : List Char → Option (List Char × List Char)
  | [] => none
  | '"' :: rest => some ([], rest)
  | '\\' :: 'u' :: a :: b :: c :: d :: rest =>
    if (hex4? a b c d).isSome then
      (scanString? rest).map fun (s, r) => ('\\' :: 'u' :: a :: b :: c :: d :: s, r)
    else none
  | '\\' :: c :: rest =>
    if (shortEscape? c).isSome then (scanString? rest).map fun (s, r) => ('\\' :: c :: s, r)
    else none
  | c :: rest =>
    if c.toNat < 0x20 || c == '\\' then none
    else (scanString? rest).map fun (s, r) => (c :: s, r)

/-- One or more digits, and the rest. -/
def scanDigits? (cs : List Char) : Option (List Char × List Char) :=
  match cs.takeWhile Char.isDigit with
  | [] => none
  | ds => some (ds, cs.dropWhile Char.isDigit)

/-- The integer part of a number, and the rest. -/
def scanWhole? : List Char → Option (List Char × List Char)
  | '0' :: rest =>
    if rest.head?.any Char.isDigit then none else some (['0'], rest)
  | cs => scanDigits? cs

/-- The fraction of a number if a point follows, and the rest. -/
def scanFraction? : List Char → Option (List Char × List Char)
  | '.' :: rest => (scanDigits? rest).map fun (ds, r) => ('.' :: ds, r)
  | cs => some ([], cs)

/-- The exponent of a number if its letter follows, and the rest. -/
def scanExponent? (cs : List Char) : Option (List Char × List Char) :=
  match cs with
  | [] => some ([], [])
  | e :: rest =>
    if e == 'e' || e == 'E' then
      match rest with
      | [] => none
      | s :: more =>
        if s == '+' || s == '-' then (scanDigits? more).map fun (ds, r) => (e :: s :: ds, r)
        else (scanDigits? rest).map fun (ds, r) => (e :: ds, r)
    else some ([], cs)

/-- The written form of a number at the start of a text, and the rest. -/
def scanNumber? (cs : List Char) : Option (List Char × List Char) := do
  let (sign, cs) := match cs with
    | '-' :: rest => (['-'], rest)
    | _ => ([], cs)
  let (whole, cs) ← scanWhole? cs
  let (fraction, cs) ← scanFraction? cs
  let (exponent, cs) ← scanExponent? cs
  some (sign ++ whole ++ fraction ++ exponent, cs)

mutual

/-- A value at the start of a text, and the rest. -/
def value? : Nat → List Char → Option (Json × List Char)
  | 0, _ => none
  | fuel + 1, cs =>
    match skipBlanks cs with
    | '{' :: rest =>
      match skipBlanks rest with
      | '}' :: rest => some (.object [], rest)
      | rest => (members? fuel rest).map fun (ms, r) => (.object ms, r)
    | '[' :: rest =>
      match skipBlanks rest with
      | ']' :: rest => some (.array [], rest)
      | rest => (items? fuel rest).map fun (vs, r) => (.array vs, r)
    | '"' :: rest => (scanString? rest).map fun (s, r) => (.string s, r)
    | 't' :: 'r' :: 'u' :: 'e' :: rest => some (.bool true, rest)
    | 'f' :: 'a' :: 'l' :: 's' :: 'e' :: rest => some (.bool false, rest)
    | 'n' :: 'u' :: 'l' :: 'l' :: rest => some (.null, rest)
    | rest => (scanNumber? rest).map fun (n, r) => (.number n, r)

/-- The items of an array from the first one on, and what follows the closing bracket. -/
def items? : Nat → List Char → Option (List Json × List Char)
  | 0, _ => none
  | fuel + 1, cs =>
    match value? fuel cs with
    | none => none
    | some (v, cs) =>
      match skipBlanks cs with
      | ']' :: rest => some ([v], rest)
      | ',' :: rest => (items? fuel rest).map fun (vs, r) => (v :: vs, r)
      | _ => none

/-- The members of an object from the first one on, and what follows the closing brace. -/
def members? : Nat → List Char → Option (List (List Char × Json) × List Char)
  | 0, _ => none
  | fuel + 1, cs =>
    match skipBlanks cs with
    | '"' :: cs =>
      match scanString? cs with
      | none => none
      | some (name, cs) =>
        match skipBlanks cs with
        | ':' :: cs =>
          match value? fuel cs with
          | none => none
          | some (v, cs) =>
            match skipBlanks cs with
            | '}' :: rest => some ([(name, v)], rest)
            | ',' :: rest => (members? fuel rest).map fun (ms, r) => ((name, v) :: ms, r)
            | _ => none
        | _ => none
    | _ => none

end

/-- The value that a whole text spells. Every two nested calls of the value machine consume a
character, so twice the length bounds its depth. -/
def parse? (cs : List Char) : Option Json :=
  match value? (2 * cs.length + 2) cs with
  | some (v, rest) => if (skipBlanks rest).isEmpty then some v else none
  | none => none

end RunLedger.Json
