import RunLedger.Binary64.Rounding

/-!
# Shortest decimal text

A finite number is printed with the fewest decimal digits that read back as the same number. Every
real between the midpoints to its two neighbours rounds to it, the midpoints themselves exactly when
its last bit is zero. On the grid of decimals with `n` digits only the two points on either side of
the number can lie in that interval, so the search tries `n = 1, 2, …, 17`, and of two hits takes
the nearer, on a tie the even one.

## Main definitions

* `Binary64.Span`: a number and its rounding interval as multiples of one unit.
* `Binary64.shortest`: coefficient and power of ten of the shortest decimal.
* `NumberLayout`, `Binary64.render`: where the point goes and how an exponent is written.
-/

namespace RunLedger.Binary64

/-- A positive finite number together with its rounding interval: `centre`, `low` and `high` are
multiples of the fraction `unit / unitBelow`, and the ends belong to the interval if `closed`. -/
structure Span where
  /-- The number itself. -/
  centre : Nat
  /-- The midpoint to the neighbour below. -/
  low : Nat
  /-- The midpoint to the neighbour above. -/
  high : Nat
  /-- Whether the midpoints round to the number. -/
  closed : Bool
  /-- Numerator of the unit. -/
  unit : Nat
  /-- Denominator of the unit. -/
  unitBelow : Nat

/-- The rounding interval of a positive finite magnitude. Below a power of two the neighbour is
half as far, except at the smallest exponent. -/
def span (magnitude : Nat) : Span :=
  let (c, e) := parts magnitude
  let narrow := c == 0x10000000000000 && e != -1074
  let e' := e - 2
  { centre := 4 * c
    low := if narrow then 4 * c - 1 else 4 * c - 2
    high := 4 * c + 2
    closed := c % 2 == 0
    unit := Nat.pow 2 e'.toNat
    unitBelow := Nat.pow 2 (-e').toNat }

/-- The number of decimal digits before the point of `n / d`, negative if zeros follow the point:
the `k` with `10 ^ (k - 1) ≤ n / d < 10 ^ k`. -/
def decimalPlaces (n d : Nat) : Int :=
  if d ≤ n then (Nat.toDigits 10 (n / d)).length
  else 1 - ((Nat.toDigits 10 ((d - 1) / n)).length : Int)

/-- The point of the grid `10 ^ g` that reads back as the number, if one does. -/
def Span.onGrid? (s : Span) (g : Int) : Option Nat :=
  let scale := s.unit * Nat.pow 10 (-g).toNat
  let step := s.unitBelow * Nat.pow 10 g.toNat
  let inside (d : Nat) : Bool :=
    if s.closed then s.low * scale ≤ d * step && d * step ≤ s.high * scale
    else s.low * scale < d * step && d * step < s.high * scale
  let below := s.centre * scale / step
  let rest := s.centre * scale % step
  match inside below, inside (below + 1) with
  | false, false => none
  | true, false => some below
  | false, true => some (below + 1)
  | true, true =>
    if 2 * rest < step then some below
    else if step < 2 * rest then some (below + 1)
    else if below % 2 = 0 then some below else some (below + 1)

/-- Coefficient and power of ten of the shortest decimal, trying grids of `17 - left`, …, 17
digits. -/
def Span.search (s : Span) (places : Int) : Nat → Nat × Int
  | 0 =>
    let g := places - 17
    (s.centre * (s.unit * Nat.pow 10 (-g).toNat) / (s.unitBelow * Nat.pow 10 g.toNat), g)
  | left + 1 =>
    let g := places - (17 - left : Nat)
    match s.onGrid? g with
    | some d => (d, g)
    | none => s.search places left

/-- The shortest decimal `c · 10 ^ g` that reads back as a positive finite magnitude. -/
def shortest (magnitude : Nat) : Nat × Int :=
  let s := span magnitude
  s.search (decimalPlaces (s.centre * s.unit) s.unitBelow) 17

end Binary64

/-- How a number is laid out once its digits are known. -/
structure NumberLayout where
  /-- Smallest decimal exponent written without an exponent part. -/
  minPlain : Int
  /-- Largest decimal exponent written without an exponent part. -/
  maxPlain : Int
  /-- The text between the digits and a positive exponent. -/
  positiveMark : List Char
  /-- The text between the digits and a negative exponent. -/
  negativeMark : List Char

namespace NumberLayout

/-- Lays out the digits `ds` of a number whose first digit stands for `10 ^ e`. Plain text has at
least one digit on either side of the point. -/
def place (layout : NumberLayout) (ds : List Char) (e : Int) : List Char :=
  if layout.minPlain ≤ e && e ≤ layout.maxPlain then
    if e < 0 then
      '0' :: '.' :: (List.replicate (-e - 1).toNat '0' ++ ds)
    else
      let whole := e.toNat + 1
      if ds.length ≤ whole then ds ++ List.replicate (whole - ds.length) '0' ++ ['.', '0']
      else ds.take whole ++ '.' :: ds.drop whole
  else
    let mantissa :=
      match ds with
      | [] => []
      | [d] => [d]
      | d :: more => d :: '.' :: more
    mantissa ++ (if e < 0 then layout.negativeMark else layout.positiveMark)
      ++ Nat.toDigits 10 e.natAbs

/-- Lays out a finite number with its shortest digits. -/
def render (layout : NumberLayout) (x : Binary64) : List Char :=
  let sign := if x.negative then ['-'] else []
  if x.magnitude = 0 then sign ++ ['0', '.', '0']
  else
    let (c, g) := Binary64.shortest x.magnitude
    let written := Nat.toDigits 10 c
    let digits := (written.reverse.dropWhile (· == '0')).reverse
    sign ++ layout.place digits (g + written.length - 1)

end NumberLayout

end RunLedger
