import RunLedger.Binary64.Rounding
import RunLedger.Text.Digits

/-!
# Reading decimal text

A decimal is a sign, a coefficient and a power of ten. Its number is the nearest `Binary64`; one
that lies far outside the range is settled from its digit count, before any power is computed.
A number on the command line or in a configuration file has an optional sign, digits with at most
one point among them, and an optional exponent; infinities and NaN are written by name.

## Main definitions

* `Decimal`: sign, coefficient and power of ten.
* `Decimal.toBinary64`: the nearest number.
* `Decimal.read?`: a whole text as a decimal.
* `Binary64.read?`: a whole text as a number, infinities and NaN included.
-/

namespace RunLedger

/-- The value `± coefficient · 10 ^ exponent`. -/
structure Decimal where
  /-- The sign. -/
  negative : Bool
  /-- The digits as one natural number. -/
  coefficient : Nat
  /-- The power of ten. -/
  exponent : Int
deriving DecidableEq

namespace Decimal

/-- The nearest number. A value of at least `10 ^ 309` is infinite and one below `10 ^ (-324)` is
zero. -/
def toBinary64 (d : Decimal) : Binary64 :=
  if d.coefficient = 0 then .zeroOf d.negative
  else
    let top := ((Nat.toDigits 10 d.coefficient).length : Int) + d.exponent
    if 310 ≤ top then .infinity d.negative
    else if top ≤ -324 then .zeroOf d.negative
    else
      .ofRatio d.negative (d.coefficient * Nat.pow 10 d.exponent.toNat)
        (Nat.pow 10 (-d.exponent).toNat)

/-- The exponent that `cs` spells: nothing at all, or a letter, an optional sign and digits. -/
def readExponent? (cs : List Char) : Option Int :=
  match cs with
  | [] => some 0
  | c :: rest => if c == 'e' || c == 'E' then Text.readInt? rest else none

/-- The unsigned decimal that `cs` spells: digits with at most one point among them and at least
one digit, then an optional exponent. -/
def readUnsigned? (negative : Bool) (cs : List Char) : Option Decimal := do
  let whole := cs.takeWhile Char.isDigit
  let (fraction, tail) :=
    match cs.dropWhile Char.isDigit with
    | '.' :: rest => (rest.takeWhile Char.isDigit, rest.dropWhile Char.isDigit)
    | rest => ([], rest)
  if whole.isEmpty && fraction.isEmpty then none
  else
    let e ← readExponent? tail
    some { negative, coefficient := Text.natOfDigits (whole ++ fraction),
           exponent := e - fraction.length }

/-- The decimal that the whole text spells. -/
def read? (cs : List Char) : Option Decimal :=
  let (minus, rest) := Text.splitSign cs
  readUnsigned? minus rest

end Decimal

/-- The number that the whole text spells: a decimal, or an infinity or NaN by its name in letters
of any case. -/
def Binary64.read? (cs : List Char) : Option Binary64 :=
  let (minus, rest) := Text.splitSign cs
  let name := String.ofList (rest.map Char.toLower)
  if name == "inf" || name == "infinity" then some (.infinity minus)
  else if name == "nan" then some .nan
  else (Decimal.readUnsigned? minus rest).map Decimal.toBinary64

end RunLedger
