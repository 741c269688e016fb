import RunLedger.Binary64

/-!
# Rounding to the nearest number

A non-negative fraction `n / d` is rounded to the nearest `Binary64`, a tie to the one whose last
bit is zero, and past the largest finite number to infinity. Products and quotients of numbers are
the rounded exact ones.

## Main definitions

* `Binary64.roundDiv`: the integer nearest to a fraction, a tie to the even one.
* `Binary64.magnitudeOfRatio`: the magnitude nearest to a fraction.
* `Binary64.ratio`: the exact fraction that a finite magnitude stands for.
* `Binary64.scaleUp`, `Binary64.scaleDown`: one rounded multiplication or division.
-/

namespace RunLedger.Binary64

/-- The integer nearest to `n / d`, a tie to the even one. -/
def roundDiv (n d : Nat) : Nat :=
  let q := n / d
  let r := n % d
  if 2 * r < d then q
  else if d < 2 * r then q + 1
  else if q % 2 = 0 then q else q + 1

/-- The exponent of the last bit of the number nearest to `n / d`, at least that of the smallest
number. -/
def lastBitExponent (n d : Nat) : Int :=
  let l : Int := (n.log2 : Int) - d.log2
  let top := if d * Nat.pow 2 l.toNat ≤ n * Nat.pow 2 (-l).toNat then l else l - 1
  max (top - 52) (-1074)

/-- The magnitude nearest to `n / d`, for a positive `d`. -/
def magnitudeOfRatio (n d : Nat) : Nat :=
  if n = 0 then 0
  else
    let e := lastBitExponent n d
    let q := roundDiv (n * Nat.pow 2 (-e).toNat) (d * Nat.pow 2 e.toNat)
    min infinite ((e + 1074).toNat * 0x10000000000000 + q)

theorem magnitudeOfRatio_le (n d : Nat) : magnitudeOfRatio n d ≤ infinite := by
  unfold magnitudeOfRatio
  split
  · exact Nat.zero_le _
  · exact Nat.min_le_left _ _

/-- The number of the given sign nearest to `n / d`. -/
def ofRatio (negative : Bool) (n d : Nat) : Binary64 where
  negative
  magnitude := magnitudeOfRatio n d
  magnitude_lt := Nat.lt_of_le_of_lt (magnitudeOfRatio_le n d) (by decide)

/-- The significand and the exponent of its last bit for a finite magnitude. -/
def parts (magnitude : Nat) : Nat × Int :=
  let exponent := magnitude / 0x10000000000000
  let fraction := magnitude % 0x10000000000000
  if exponent = 0 then (fraction, -1074)
  else (0x10000000000000 + fraction, (exponent : Int) - 1075)

/-- The exact fraction that a finite magnitude stands for. -/
def ratio (magnitude : Nat) : Nat × Nat :=
  let (c, e) := parts magnitude
  (c * Nat.pow 2 e.toNat, Nat.pow 2 (-e).toNat)

/-- The number nearest to a power of ten. -/
def powerOfTen (k : Nat) : Nat := magnitudeOfRatio (Nat.pow 10 k) 1

/-- The product with the number nearest to `10 ^ k`, rounded. -/
def scaleUp (magnitude k : Nat) : Nat :=
  let (a, b) := ratio magnitude
  let (p, q) := ratio (powerOfTen k)
  magnitudeOfRatio (a * p) (b * q)

/-- The quotient by the number nearest to `10 ^ k`, rounded. -/
def scaleDown (magnitude k : Nat) : Nat :=
  let (a, b) := ratio magnitude
  let (p, q) := ratio (powerOfTen k)
  magnitudeOfRatio (a * q) (b * p)

end RunLedger.Binary64
