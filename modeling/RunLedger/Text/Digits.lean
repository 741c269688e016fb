/-!
# Numbers in digits

A natural number is written in one or more of the digits 0–9, leading zeros allowed, and an integer
has an optional sign before them. The ledger's integers have 64 bits: they are read digit by digit,
and reading stops where the number leaves their range. Codes of characters and bytes are written in
hexadecimal digits.

## Main definitions

* `Text.natOfDigits`: the number that digits denote.
* `Text.readNat?`, `Text.readInt?`: a whole text as a number.
* `inInt64`: the range of a signed integer of 64 bits.
* `Text.appendDigit?`, `Text.readInt64?`: one more digit, and a whole text as such an integer.
* `Text.hexDigit?`, `Text.readHex?`: hexadecimal digits and what they denote.
-/

namespace RunLedger

/-- The signed integers of 64 bits. -/
def inInt64 (n : Int) : Bool :=
  -9223372036854775808 ≤ n && n ≤ 9223372036854775807

namespace Text

/-- The value of a decimal digit. -/
def digitValue (c : Char) : Nat := c.toNat - 48

/-- The natural number that decimal digits denote. -/
def natOfDigits (ds : List Char) : Nat :=
  ds.foldl (fun n c => 10 * n + digitValue c) 0

/-- The natural number that one or more digits denote. -/
def readNat? (cs : List Char) : Option Nat :=
  if !cs.isEmpty && cs.all Char.isDigit then some (natOfDigits cs) else none

/-- Splits an optional sign off; `true` stands for a minus. -/
def splitSign : List Char → Bool × List Char
  | '+' :: cs => (false, cs)
  | '-' :: cs => (true, cs)
  | cs => (false, cs)

/-- The integer that an optional sign and one or more digits denote. -/
def readInt? (cs : List Char) : Option Int :=
  let (minus, ds) := splitSign cs
  (readNat? ds).map fun n => if minus then -(n : Int) else n

/-- An integer of 64 bits with one more digit behind it, added or, behind a minus, taken away.
Neither ten times the integer nor the result may leave the range. -/
def appendDigit? (minus : Bool) (n : Int) (c : Char) : Option Int :=
  if c.isDigit then
    ((some (10 * n)).filter inInt64).bind fun tenfold =>
      (some (if minus then tenfold - digitValue c else tenfold + digitValue c)).filter inInt64
  else none

/-- The integer of 64 bits that an optional sign and one or more digits denote. -/
def readInt64? (cs : List Char) : Option Int :=
  let (minus, ds) := splitSign cs
  if ds.isEmpty then none else ds.foldlM (appendDigit? minus) 0

/-- The value of a hexadecimal digit. -/
def hexDigit? (c : Char) : Option Nat :=
  if '0' ≤ c && c ≤ '9' then some (c.toNat - 48)
  else if 'a' ≤ c && c ≤ 'f' then some (c.toNat - 87)
  else if 'A' ≤ c && c ≤ 'F' then some (c.toNat - 55)
  else none

/-- The natural number that hexadecimal digits denote. -/
def readHex? (ds : List Char) : Option Nat :=
  ds.foldlM (fun n c => (hexDigit? c).map (16 * n + ·)) 0

end Text

end RunLedger
