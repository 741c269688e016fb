import RunLedger.Binary64.Decimal
import RunLedger.Toml.Value

/-!
# Reading TOML

The grammar of TOML 1.0 by lines: a line is blank, a key-value pair or a header, with a comment at
its end. Keys have fewer than eighty parts, and values are nested less than eighty deep. A failure
anywhere refuses the whole document; what is wrong with it is not reported.

## Main definitions

* `Toml.basicString?`, `Toml.literalString?` and their multi-line forms.
* `Toml.integer?`, `Toml.isFloat`, `Toml.isDateTime`: the scalar words.
* `Toml.deepest`: how many parts a key has at most, and how deep values are nested.
* `Toml.value?`: a value and the rest of the text.
* `Toml.parse?`: a whole document.
-/

namespace RunLedger.Toml

/-- White space within a line. -/
def isBlank (c : Char) : Bool := c == ' ' || c == '\t'

/-- The text after white space within the line. -/
def skipBlanks (cs : List Char) : List Char := cs.dropWhile isBlank

/-- The characters that may stand in a comment: no control character but the tab. -/
def isTextChar (c : Char) : Bool := c == '\t' || (0x20 ≤ c.toNat && c.toNat != 0x7F)

/-- Skips a comment if one starts here; the rest begins at the end of the line. -/
def skipComment (cs : List Char) : List Char :=
  match cs with
  | '#' :: rest => rest.dropWhile isTextChar
  | _ => cs

/-- The text after the end of the line, which a line feed marks, with or without a carriage
return. -/
def endOfLine? : List Char → Option (List Char)
  | '\n' :: rest => some rest
  | '\r' :: '\n' :: rest => some rest
  | _ => none

/-- The Unicode character whose code the digits spell. -/
def unicodeChar? (ds : List Char) : Option Char := do
  let n ← Text.readHex? ds
  if n < 0xD800 || (0xDFFF < n && n < 0x110000) then some (Char.ofNat n) else none

/-- The character of an escape, given the text after the backslash, and the rest. -/
def escape? : List Char → Option (Char × List Char)
  | 'b' :: rest => some ('\x08', rest)
  | 't' :: rest => some ('\t', rest)
  | 'n' :: rest => some ('\n', rest)
  | 'f' :: rest => some ('\x0c', rest)
  | 'r' :: rest => some ('\r', rest)
  | '"' :: rest => some ('"', rest)
  | '\\' :: rest => some ('\\', rest)
  | 'u' :: rest =>
    if rest.length < 4 then none
    else (unicodeChar? (rest.take 4)).map fun c => (c, rest.drop 4)
  | 'U' :: rest =>
    if rest.length < 8 then none
    else (unicodeChar? (rest.take 8)).map fun c => (c, rest.drop 8)
  | _ => none

/-- A string in double quotes, from after the opening quote. -/
def basicString? : Nat → List Char → Option (List Char × List Char)
  | 0, _ => none
  | fuel + 1, cs =>
    match cs with
    | '"' :: rest => some ([], rest)
    | '\\' :: rest => do
      let (c, rest) ← escape? rest
      let (s, rest) ← basicString? fuel rest
      some (c :: s, rest)
    | c :: rest =>
      if isTextChar c then (basicString? fuel rest).map fun (s, r) => (c :: s, r) else none
    | [] => none

/-- A string in single quotes, from after the opening quote. -/
def literalString? (cs : List Char) : Option (List Char × List Char) :=
  match cs.dropWhile (fun c => isTextChar c && c != '\'') with
  | '\'' :: rest => some (cs.takeWhile (fun c => isTextChar c && c != '\''), rest)
  | _ => none

/-- The text after a first line break, which a multi-line string does not contain. -/
def dropFirstBreak (cs : List Char) : List Char := (endOfLine? cs).getD cs

/-- Skips white space and line breaks. -/
def skipSpace : Nat → List Char → List Char
  | 0, cs => cs
  | fuel + 1, cs =>
    match skipBlanks cs with
    | '\n' :: rest => skipSpace fuel rest
    | '\r' :: '\n' :: rest => skipSpace fuel rest
    | cs => cs

/-- The number of quotes `q` at the start of a text, at most five. -/
def quoteRun (q : Char) (cs : List Char) : Nat := ((cs.take 5).takeWhile (· == q)).length

/-- A multi-line string, from after its opening. Up to two quotes may stand anywhere, also before
the closing three. In a `basic` string a backslash starts an escape, or joins lines. -/
def multiLine? (basic : Bool) (q : Char) : Nat → List Char → Option (List Char × List Char)
  | 0, _ => none
  | fuel + 1, cs =>
    let run := quoteRun q cs
    if 3 ≤ run then some (List.replicate (run - 3) q, cs.drop run)
    else
      match cs with
      | '\n' :: rest => (multiLine? basic q fuel rest).map fun (s, r) => ('\n' :: s, r)
      | '\r' :: '\n' :: rest => (multiLine? basic q fuel rest).map fun (s, r) => ('\n' :: s, r)
      | '\\' :: rest =>
        if !basic then (multiLine? basic q fuel rest).map fun (s, r) => ('\\' :: s, r)
        else if (endOfLine? (skipBlanks rest)).isSome then
          multiLine? basic q fuel (skipSpace (rest.length + 1) rest)
        else do
          let (c, rest) ← escape? rest
          let (s, rest) ← multiLine? basic q fuel rest
          some (c :: s, rest)
      | c :: rest =>
        if isTextChar c then (multiLine? basic q fuel rest).map fun (s, r) => (c :: s, r) else none
      | [] => none

/-- A string that starts with a quote, in any of the four forms. -/
def string? (cs : List Char) : Option (List Char × List Char) :=
  match cs with
  | '"' :: '"' :: '"' :: rest => multiLine? true '"' (rest.length + 1) (dropFirstBreak rest)
  | '\'' :: '\'' :: '\'' :: rest => multiLine? false '\'' (rest.length + 1) (dropFirstBreak rest)
  | '"' :: rest => basicString? (rest.length + 1) rest
  | '\'' :: rest => literalString? rest
  | _ => none

/-- The characters of a bare key. -/
def isBareKeyChar (c : Char) : Bool := c.isAlphanum || c == '_' || c == '-'

/-- One part of a key: bare, or a string of one line. -/
def simpleKey? (cs : List Char) : Option (String × List Char) :=
  match cs with
  | '"' :: rest => (basicString? (rest.length + 1) rest).map fun (k, r) => (String.ofList k, r)
  | '\'' :: rest => (literalString? rest).map fun (k, r) => (String.ofList k, r)
  | _ =>
    match cs.takeWhile isBareKeyChar with
    | [] => none
    | k => some (String.ofList k, cs.dropWhile isBareKeyChar)

/-- How many parts a key has at most, and how many arrays and inline tables are open at once. -/
def deepest : Nat := 79

/-- A key of at most `count` parts: its parts before the last, the last part, and the rest of the
text. -/
def keyOf? : Nat → List Char → Option (List String × String × List Char)
  | 0, _ => none
  | count + 1, cs => do
    let (part, rest) ← simpleKey? (skipBlanks cs)
    match skipBlanks rest with
    | '.' :: rest => do
      let (path, last, rest) ← keyOf? count rest
      some (part :: path, last, rest)
    | rest => some ([], part, rest)

/-- A key: its parts before the last, the last part, and the rest of the text. -/
def key? (cs : List Char) : Option (List String × String × List Char) := keyOf? deepest cs

/-- Digits of one class with single underscores between them, without the underscores. -/
def groupedDigits? (isDigit : Char → Bool) : List Char → Option (List Char)
  | [] => none
  | [c] => if isDigit c then some [c] else none
  | c :: '_' :: rest => if isDigit c then (groupedDigits? isDigit rest).map (c :: ·) else none
  | c :: rest => if isDigit c then (groupedDigits? isDigit rest).map (c :: ·) else none

/-- Decimal digits without a leading zero. -/
def plainDigits? (cs : List Char) : Option (List Char) :=
  match groupedDigits? Char.isDigit cs with
  | some ('0' :: _ :: _) => none
  | ds => ds

/-- The number that digits denote in a base. -/
def ofDigits (base : Nat) (ds : List Char) : Nat :=
  ds.foldl (fun n c => base * n + (Text.hexDigit? c).getD 0) 0

/-- The integer that a word spells, in decimal with an optional sign or in base 16, 8 or 2. -/
def integer? (word : List Char) : Option Int := do
  let n ←
    match word with
    | '0' :: 'x' :: ds =>
      (groupedDigits? (fun c => (Text.hexDigit? c).isSome) ds).map fun ds => (ofDigits 16 ds : Int)
    | '0' :: 'o' :: ds =>
      (groupedDigits? (fun c => '0' ≤ c && c ≤ '7') ds).map fun ds => (ofDigits 8 ds : Int)
    | '0' :: 'b' :: ds =>
      (groupedDigits? (fun c => c == '0' || c == '1') ds).map fun ds => (ofDigits 2 ds : Int)
    | _ =>
      let (minus, ds) := Text.splitSign word
      (plainDigits? ds).map fun ds =>
        if minus then -(Text.natOfDigits ds : Int) else Text.natOfDigits ds
  if inInt64 n then some n else none

/-- Whether a word spells an exponent: its letter, an optional sign and digits. -/
def isExponent : List Char → Bool
  | c :: rest =>
    (c == 'e' || c == 'E') && (groupedDigits? Char.isDigit (Text.splitSign rest).2).isSome
  | [] => false

/-- Whether a word spells a floating-point number that is not too large to be finite, an infinity
or NaN. -/
def isFloat (word : List Char) : Bool :=
  let unsigned := (Text.splitSign word).2
  let isExponentMark (c : Char) : Bool := c == 'e' || c == 'E'
  let mantissa := unsigned.takeWhile fun c => !isExponentMark c
  let exponent := unsigned.dropWhile fun c => !isExponentMark c
  let whole := mantissa.takeWhile (· != '.')
  let wellFormed :=
    match mantissa.dropWhile (· != '.') with
    | [] => isExponent exponent
    | _ :: fraction =>
      (groupedDigits? Char.isDigit fraction).isSome && (exponent.isEmpty || isExponent exponent)
  if unsigned == ['i', 'n', 'f'] || unsigned == ['n', 'a', 'n'] then true
  else if (plainDigits? whole).isSome && wellFormed then
    match Binary64.read? (word.filter (· != '_')) with
    | some x => !(x.isInfinite && !x.negative)
    | none => false
  else false

/-- The number that exactly `count` decimal digits denote. -/
def fixedDigits? (count : Nat) (cs : List Char) : Option Nat :=
  if cs.length == count then Text.readNat? cs else none

/-- The number of days in a month. -/
def daysIn (year month : Nat) : Nat :=
  if month == 2 then
    if (year % 4 == 0 && year % 100 != 0) || year % 400 == 0 then 29 else 28
  else if month == 4 || month == 6 || month == 9 || month == 11 then 30
  else 31

/-- Whether a word spells a date, `YYYY-MM-DD`. -/
def isDate (cs : List Char) : Bool :=
  match fixedDigits? 4 (cs.take 4), cs.drop 4 with
  | some year, '-' :: rest =>
    match fixedDigits? 2 (rest.take 2), rest.drop 2 with
    | some month, '-' :: rest =>
      match fixedDigits? 2 rest with
      | some day => 1 ≤ month && month ≤ 12 && 1 ≤ day && day ≤ daysIn year month
      | none => false
    | _, _ => false
  | _, _ => false

/-- Whether a word spells a time of day, `HH:MM:SS` with an optional fraction; a minute may have a
leap second. -/
def isTime (cs : List Char) : Bool :=
  match fixedDigits? 2 (cs.take 2), cs.drop 2 with
  | some hour, ':' :: rest =>
    match fixedDigits? 2 (rest.take 2), rest.drop 2 with
    | some minute, ':' :: rest =>
      match fixedDigits? 2 (rest.take 2) with
      | some second =>
        let fractionFits :=
          match rest.drop 2 with
          | [] => true
          | '.' :: ds => (Text.readNat? ds).isSome
          | _ => false
        hour ≤ 23 && minute ≤ 59 && second ≤ 60 && fractionFits
      | none => false
    | _, _ => false
  | _, _ => false

/-- The time of day without its offset from universal time, if it has one that is well formed. -/
def withoutOffset (cs : List Char) : List Char :=
  match cs.reverse with
  | 'Z' :: rest | 'z' :: rest => rest.reverse
  | m :: m' :: ':' :: h :: h' :: s :: rest =>
    if s == '+' || s == '-' then
      match fixedDigits? 2 [h', h], fixedDigits? 2 [m', m] with
      | some hour, some minute => if hour ≤ 23 && minute ≤ 59 then rest.reverse else cs
      | _, _ => cs
    else cs
  | _ => cs

/-- Whether a word spells a date, a time of day, or both with an optional offset. -/
def isDateTime (word : List Char) : Bool :=
  isTime word || isDate word ||
    (match word.drop 10 with
      | t :: time =>
        (t == 'T' || t == 't' || t == ' ') && isDate (word.take 10)
          && (isTime time || isTime (withoutOffset time))
      | [] => false)

/-- The characters of numbers, dates and the named scalars. -/
def isScalarChar (c : Char) : Bool :=
  c.isAlphanum || c == '_' || c == '-' || c == '+' || c == '.' || c == ':'

/-- A scalar that is no string. A date and a time may have a space between them. -/
def scalar? (cs : List Char) : Option (Toml × List Char) :=
  let word := cs.takeWhile isScalarChar
  let rest := cs.dropWhile isScalarChar
  let joined :=
    match rest with
    | ' ' :: more =>
      if isDate word && more.head?.any Char.isDigit then
        some (word ++ ' ' :: more.takeWhile isScalarChar, more.dropWhile isScalarChar)
      else none
    | _ => none
  match joined with
  | some (word, rest) => if isDateTime word then some (.opaqueScalar, rest) else none
  | none =>
    if word == ['t', 'r', 'u', 'e'] || word == ['f', 'a', 'l', 's', 'e'] then
      some (.opaqueScalar, rest)
    else
      match integer? word with
      | some n => some (.integer n, rest)
      | none => if isFloat word || isDateTime word then some (.opaqueScalar, rest) else none

/-- Skips white space, line breaks and comments, as between the items of an array. -/
def skipLines : Nat → List Char → List Char
  | 0, cs => cs
  | fuel + 1, cs =>
    match skipBlanks cs with
    | '#' :: rest => skipLines fuel (rest.dropWhile isTextChar)
    | '\n' :: rest => skipLines fuel rest
    | '\r' :: '\n' :: rest => skipLines fuel rest
    | cs => cs

mutual

/-- A value at the start of a text, and the rest; `depth` arrays and inline tables may be open in
it at once. -/
def value? : Nat → Nat → List Char → Option (Toml × List Char)
  | 0, _, _ => none
  | fuel + 1, depth, cs =>
    match cs, depth with
    | '"' :: _, _ | '\'' :: _, _ => (string? cs).map fun (s, r) => (.string (String.ofList s), r)
    | '[' :: rest, depth + 1 => (items? fuel depth rest).map fun (vs, r) => (.array vs, r)
    | '{' :: rest, depth + 1 =>
      match skipBlanks rest with
      | '}' :: rest => some (.inlineTable [], rest)
      | rest => (pairs? fuel depth [] rest).map fun (es, r) => (.inlineTable es, r)
    | _, _ => scalar? cs

/-- The items of an array and what follows the closing bracket; a comma may end the list. -/
def items? : Nat → Nat → List Char → Option (List Toml × List Char)
  | 0, _, _ => none
  | fuel + 1, depth, cs =>
    match skipLines (cs.length + 1) cs with
    | ']' :: rest => some ([], rest)
    | cs =>
      match value? fuel depth cs with
      | none => none
      | some (v, cs) =>
        match skipLines (cs.length + 1) cs with
        | ']' :: rest => some ([v], rest)
        | ',' :: rest => (items? fuel depth rest).map fun (vs, r) => (v :: vs, r)
        | _ => none

/-- The entries of an inline table after `entries`, and what follows the closing brace. -/
def pairs? : Nat → Nat → Entries → List Char → Option (Entries × List Char)
  | 0, _, _, _ => none
  | fuel + 1, depth, entries, cs =>
    match key? cs with
    | some (path, key, '=' :: cs) =>
      match value? fuel depth (skipBlanks cs) with
      | none => none
      | some (v, cs) =>
        match setDotted? entries path key v with
        | none => none
        | some entries =>
          match skipBlanks cs with
          | '}' :: rest => some (entries, rest)
          | ',' :: rest => pairs? fuel depth entries rest
          | _ => none
    | _ => none

end

/-- The text after the end of a line that may hold a comment, or the empty text at its end. -/
def finishLine? (cs : List Char) : Option (List Char) :=
  match skipComment (skipBlanks cs) with
  | [] => some []
  | cs => endOfLine? cs

/-- The effect of one line that is not blank on the document and on the header in force, and the
rest of the text. -/
def line? (document : Entries) (header : List String) (cs : List Char) :
    Option (Entries × List String × List Char) :=
  match cs with
  | '[' :: '[' :: rest => do
    let (path, key, rest) ← key? rest
    match rest with
    | ']' :: ']' :: rest => some (← appendTable? document path key, path ++ [key], rest)
    | _ => none
  | '[' :: rest => do
    let (path, key, rest) ← key? rest
    match rest with
    | ']' :: rest => some (← openTable? document path key, path ++ [key], rest)
    | _ => none
  | _ => do
    let (path, key, rest) ← key? cs
    match rest with
    | '=' :: rest => do
      let rest := skipBlanks rest
      let (v, rest) ← value? (2 * rest.length + 2) deepest rest
      some (← setIn? document header path key v, header, rest)
    | _ => none

/-- The document that the lines of a text make of `document`, with `header` in force. -/
def lines? : Nat → Entries → List String → List Char → Option Entries
  | 0, _, _, _ => none
  | fuel + 1, document, header, cs =>
    match skipComment (skipBlanks cs) with
    | [] => some document
    | c :: rest =>
      match endOfLine? (c :: rest) with
      | some cs => lines? fuel document header cs
      | none => do
        let (document, header, cs) ← line? document header (skipBlanks cs)
        let cs ← finishLine? cs
        if cs.isEmpty then some document else lines? fuel document header cs

/-- The document that a whole text spells; a byte order mark may stand first. -/
def parse? (cs : List Char) : Option Entries :=
  let cs := if cs.head? == some (Char.ofNat 0xFEFF) then cs.drop 1 else cs
  lines? (cs.length + 1) [] [] cs

end RunLedger.Toml
