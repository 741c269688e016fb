import RunLedger.Binary64.Shortest
import RunLedger.Binary64.Decimal
import RunLedger.Json.Value

/-!
# Floating-point numbers in JSON

A number is read from at most 64 bits of its digits: digits that would not fit are dropped, and the
coefficient, rounded to a `Binary64`, is then multiplied or divided once by the number nearest to a
power of ten. Below `10 ^ (-308)` a division by `10 ^ 308` comes first. The result is the nearest
number whenever the coefficient and the power are exact. A number too large to be finite is refused.

Printing uses the shortest digits, without an exponent from `10 ^ (-5)` up to below `10 ^ 16`, and
prints NaN and the infinities as `null`.

## Main definitions

* `Json.binary64?`: the number that a JSON number denotes.
* `Json.ofBinary64`: the JSON number that denotes a number.
-/

namespace RunLedger.Json

/-- Takes digits into a coefficient as long as it stays below `2 ^ 64`; the digits left over are
returned. -/
def absorb : Nat → List Char → Nat × List Char
  | coefficient, [] => (coefficient, [])
  | coefficient, d :: ds =>
    let next := 10 * coefficient + Text.digitValue d
    if next < 0x10000000000000000 then absorb next ds else (coefficient, d :: ds)

/-- The magnitude of a coefficient scaled by a power of ten, if it is finite. -/
def scaled? (coefficient : Nat) (exponent : Int) : Option Nat :=
  let m := Binary64.magnitudeOfRatio coefficient 1
  if coefficient = 0 then some 0
  else if 308 < exponent then none
  else if 0 ≤ exponent then
    let r := Binary64.scaleUp m exponent.toNat
    if r = Binary64.infinite then none else some r
  else if -308 ≤ exponent then some (Binary64.scaleDown m (-exponent).toNat)
  else if -616 ≤ exponent then
    some (Binary64.scaleDown (Binary64.scaleDown m 308) (-exponent - 308).toNat)
  else some 0

/-- The magnitude of a number by the written digits before and after its point and its exponent. -/
def magnitude? (whole fraction : List Char) (exponent : Int) : Option Nat :=
  let (c, dropped) := absorb 0 whole
  let (c, unread) := absorb c fraction
  scaled? c (exponent + dropped.length - (fraction.length - unread.length : Nat))

/-- The number that a JSON number denotes. -/
def binary64? : Json → Option Binary64
  | .number written => do
    let (minus, cs) := Text.splitSign written
    let whole := cs.takeWhile Char.isDigit
    let (fraction, tail) :=
      match cs.dropWhile Char.isDigit with
      | '.' :: rest => (rest.takeWhile Char.isDigit, rest.dropWhile Char.isDigit)
      | rest => ([], rest)
    let exponent ← Decimal.readExponent? tail
    let m ← magnitude? whole fraction exponent
    if h : m < 0x8000000000000000 then
      some { negative := minus, magnitude := m, magnitude_lt := h }
    else none
  | _ => none

/-- Where a JSON number changes from plain digits to an exponent, and how that is written. -/
def numberLayout : NumberLayout where
  minPlain := -5
  maxPlain := 15
  positiveMark := ['e', '+']
  negativeMark := ['e', '-']

/-- The JSON number that denotes a finite number, and `null` for NaN and the infinities. -/
def ofBinary64 (x : Binary64) : Json :=
  if x.isNaN || x.isInfinite then .null else .number (numberLayout.render x)

end RunLedger.Json
