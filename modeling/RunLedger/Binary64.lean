/-!
# Binary floating-point numbers of 64 bits

A metric value is an IEEE 754 number of 64 bits. It is kept as its sign and its remaining 63 bits
read as a natural number, its magnitude. Among numbers that are not NaN a larger magnitude means
a larger absolute value, so the usual order is the order of the signed magnitudes, in which the
two zeros are equal.

## Main definitions

* `Binary64`: sign and magnitude.
* `Binary64.ofBits`, `Binary64.toBits`: the 64 bits as a natural number.
* `Binary64.rank`: the signed magnitude, by which numbers are compared.
* `Reading`: a value as the ledger stores it, NaN replaced by zero and a mark, infinities by the
  largest finite numbers.
-/

namespace RunLedger

/-- An IEEE 754 number of 64 bits: its sign, and its other 63 bits as a natural number. -/
structure Binary64 where
  /-- The sign bit. -/
  negative : Bool
  /-- Exponent and fraction. -/
  magnitude : Nat
  magnitude_lt : magnitude < 0x8000000000000000 := by decide
deriving DecidableEq

namespace Binary64

instance : Inhabited Binary64 := ⟨{ negative := false, magnitude := 0 }⟩

/-- The magnitude of the infinities; every larger one belongs to a NaN. -/
def infinite : Nat := 0x7ff0000000000000

/-- The magnitude of the largest finite numbers. -/
def largest : Nat := 0x7fefffffffffffff

/-- The zero of the given sign. -/
def zeroOf (negative : Bool) : Binary64 := { negative, magnitude := 0 }

/-- Positive zero. -/
def zero : Binary64 := zeroOf false

/-- The number whose 64 bits are the binary digits of `n`. -/
def ofBits (n : Nat) : Binary64 where
  negative := n / 0x8000000000000000 % 2 == 1
  magnitude := n % 0x8000000000000000
  magnitude_lt := Nat.mod_lt _ (by decide)

/-- The 64 bits as a natural number. -/
def toBits (x : Binary64) : Nat :=
  (if x.negative then 0x8000000000000000 else 0) + x.magnitude

/-- The quiet NaN without a sign. -/
def nan : Binary64 := { negative := false, magnitude := 0x7ff8000000000000 }

/-- The infinity of the given sign. -/
def infinity (negative : Bool) : Binary64 := { negative, magnitude := infinite }

/-- The number of largest absolute value of the given sign. -/
def largestOf (negative : Bool) : Binary64 := { negative, magnitude := largest }

/-- Whether the number is a NaN. -/
def isNaN (x : Binary64) : Bool := infinite < x.magnitude

/-- Whether the number is an infinity. -/
def isInfinite (x : Binary64) : Bool := x.magnitude == infinite

/-- The signed magnitude: numbers that are not NaN compare as their ranks do. -/
def rank (x : Binary64) : Int :=
  if x.negative then -(x.magnitude : Int) else x.magnitude

/-- The number without the sign of a negative zero, as a column of a table keeps it. -/
def unsignZero (x : Binary64) : Binary64 :=
  if x.magnitude = 0 then zero else x

theorem toBits_ofBits (n : Nat) (h : n < 0x10000000000000000) : (ofBits n).toBits = n := by
  simp only [toBits, ofBits, beq_iff_eq]
  split <;> omega

theorem ofBits_toBits (x : Binary64) : ofBits x.toBits = x := by
  have h := x.magnitude_lt
  rcases x with ⟨s, m, hm⟩
  cases s <;> simp only [ofBits, toBits, mk.injEq, beq_eq_false_iff_ne, beq_iff_eq] <;>
    constructor <;> simp <;> omega

/-- Numbers of one rank differ at most in the sign of zero. -/
theorem unsignZero_eq_of_rank_eq {x y : Binary64} (h : x.rank = y.rank) :
    x.unsignZero = y.unsignZero := by
  rcases x with ⟨s, m, hm⟩
  rcases y with ⟨t, n, hn⟩
  cases s <;> cases t <;> simp only [rank, unsignZero] at * <;> grind

theorem rank_unsignZero (x : Binary64) : x.unsignZero.rank = x.rank := by
  rcases x with ⟨s, m, hm⟩
  by_cases h : m = 0 <;> cases s <;> simp [unsignZero, rank, zero, zeroOf, h]

@[simp] theorem unsignZero_unsignZero (x : Binary64) : x.unsignZero.unsignZero = x.unsignZero :=
  unsignZero_eq_of_rank_eq x.rank_unsignZero

end Binary64

/-- A metric value as the ledger stores it. -/
structure Reading where
  /-- The finite number stored. -/
  value : Binary64
  /-- Marks that NaN was logged; the number stored is then zero. -/
  nan : Bool
deriving DecidableEq

namespace Reading

/-- NaN becomes a marked zero, an infinity the largest finite number of its sign. -/
def ofValue (x : Binary64) : Reading :=
  if x.isNaN then { value := .zero, nan := true }
  else if x.isInfinite then { value := .largestOf x.negative, nan := false }
  else { value := x, nan := false }

/-- The value read back: NaN where the mark is set. -/
def toValue (r : Reading) : Binary64 :=
  if r.nan then .nan else r.value

/-- The reading as a table keeps it, without a negative zero. -/
def stored (r : Reading) : Reading :=
  { r with value := r.value.unsignZero }

@[simp] theorem stored_stored (r : Reading) : r.stored.stored = r.stored := by
  simp only [stored, Binary64.unsignZero_unsignZero]

theorem rank_stored (r : Reading) : r.stored.value.rank = r.value.rank :=
  r.value.rank_unsignZero

end Reading

end RunLedger
