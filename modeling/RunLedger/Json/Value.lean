import RunLedger.Text.Digits

/-!
# JSON values

A JSON value keeps its numbers and strings as they are written, between the quotes in the case of a
string. A reader that skips a value has then checked its grammar and nothing else; what a number or
a string denotes is asked only where a type needs it.

## Main definitions

* `Json`: the values.
* `Json.escape`, `Json.unescape?`: the written form of a string and what it denotes.
* `Json.ofString`, `Json.text?`, `Json.ofInt`, `Json.int64?`, `Json.nat64?`.
-/

namespace RunLedger

/-- A JSON value whose numbers and strings are kept as they are written. -/
inductive Json
  | null
  | bool (b : Bool)
  | number (written : List Char)
  | string (written : List Char)
  | array (items : List Json)
  | object (members : List (List Char × Json))

namespace Json

/-- The number that four hexadecimal digits denote. -/
def hex4? (a b c d : Char) : Option Nat := Text.readHex? [a, b, c, d]

/-- The character that a backslash and a letter denote. -/
def shortEscape? : Char → Option Char
  | '"' => some '"'
  | '\\' => some '\\'
  | '/' => some '/'
  | 'b' => some '\x08'
  | 'f' => some '\x0c'
  | 'n' => some '\n'
  | 'r' => some '\r'
  | 't' => some '\t'
  | _ => none

/-- The written form of one character: quotes, backslashes and control characters are escaped, the
latter by a letter where there is one. -/
def escapeChar (c : Char) : List Char :=
  if c = '"' then ['\\', '"']
  else if c = '\\' then ['\\', '\\']
  else if c = '\x08' then ['\\', 'b']
  else if c = '\x0c' then ['\\', 'f']
  else if c = '\n' then ['\\', 'n']
  else if c = '\r' then ['\\', 'r']
  else if c = '\t' then ['\\', 't']
  else if c.toNat < 0x20 then
    ['\\', 'u', '0', '0', Nat.digitChar (c.toNat / 16), Nat.digitChar (c.toNat % 16)]
  else [c]

/-- The written form of a string, without the quotes. -/
def escape (cs : List Char) : List Char := cs.flatMap escapeChar

/-- The characters that a written string denotes. An escaped code unit of a surrogate pair must be
followed by the other one. -/
def unescape? : List Char → Option (List Char)
  | [] => some []
  | '\\' :: 'u' :: a :: b :: c :: d :: rest =>
    match hex4? a b c d with
    | none => none
    | some n =>
      if n < 0xD800 || 0xDFFF < n then (unescape? rest).map (Char.ofNat n :: ·)
      else if 0xDC00 ≤ n then none
      else
        match rest with
        | '\\' :: 'u' :: e :: f :: g :: h :: rest' =>
          match hex4? e f g h with
          | none => none
          | some m =>
            if 0xDC00 ≤ m && m ≤ 0xDFFF then
              (unescape? rest').map
                (Char.ofNat (0x10000 + (n - 0xD800) * 0x400 + (m - 0xDC00)) :: ·)
            else none
        | _ => none
  | '\\' :: c :: rest =>
    match shortEscape? c with
    | none => none
    | some d => (unescape? rest).map (d :: ·)
  | ['\\'] => none
  | c :: rest => (unescape? rest).map (c :: ·)

/-- The JSON string that denotes `s`. -/
def ofString (s : String) : Json := .string (escape s.toList)

/-- The text that a JSON string denotes. -/
def text? : Json → Option String
  | .string written => (unescape? written).map String.ofList
  | _ => none

/-- The JSON number that denotes an integer. -/
def ofInt (n : Int) : Json := .number (toString n).toList

/-- The integer of 64 bits that a JSON number denotes; it must be written as an integer, and zero
without a sign. -/
def int64? : Json → Option Int
  | .number written => if written = ['-', '0'] then none else Text.readInt64? written
  | _ => none

/-- The natural number of 64 bits that a JSON number denotes; it must be written as one. -/
def nat64? : Json → Option Nat
  | .number written => (Text.readNat? written).filter (· < 0x10000000000000000)
  | _ => none

/-- The truth value. -/
def bool? : Json → Option Bool
  | .bool b => some b
  | _ => none

end Json

end RunLedger
