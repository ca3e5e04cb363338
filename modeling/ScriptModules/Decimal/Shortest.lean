/-!
# Shortest decimal digits

A finite binary64 number above zero is `m · 2^q`.  The reals that round to it
form an interval around it, which holds its ends exactly when `m` is even.  Its
shortest digits are the fewest decimal digits whose value lies in the interval,
and of those the ones nearest to the number.

The search goes through the grids of 1, 2, … 17 digits.  On a grid only the two
neighbours of the number can be nearest, so these two are tested, in exact
arithmetic.  Every number has a hit on the last grid.
-/

namespace ScriptModules.Decimal

/-- The value `digits · 10^exponent`. -/
structure Scientific where
  digits : Nat
  exponent : Int
  deriving DecidableEq, Repr

/-- A number over a common denominator, with the ends of the interval of reals
that round to it. -/
structure Rounding where
  /-- Numerator of the lower end. -/
  low : Nat
  /-- Numerator of the number. -/
  value : Nat
  /-- Numerator of the upper end. -/
  high : Nat
  /-- The denominator. -/
  denominator : Nat
  /-- Whether the ends belong to the interval. -/
  closed : Bool

/-- The interval of `m · 2^q`.  Below a power of two the neighbours are closer:
`narrow` tells whether the number is one with a smaller exponent beneath it. -/
def Rounding.ofBinary (m : Nat) (q : Int) (narrow : Bool) : Rounding :=
  let shift (n : Nat) : Nat := if 0 ≤ q - 2 then n * 2 ^ (q - 2).toNat else n
  { low := shift (4 * m - if narrow then 1 else 2)
    value := shift (4 * m)
    high := shift (4 * m + 2)
    denominator := if 0 ≤ q - 2 then 1 else 2 ^ (2 - q).toNat
    closed := m % 2 == 0 }

/-- Whether `digits · 10^exponent` rounds to the number. -/
def Rounding.holds (r : Rounding) (digits : Nat) (exponent : Int) : Bool :=
  let point := if 0 ≤ exponent then digits * 10 ^ exponent.toNat * r.denominator
    else digits * r.denominator
  let scale := if 0 ≤ exponent then 1 else 10 ^ (-exponent).toNat
  if r.closed then r.low * scale ≤ point && point ≤ r.high * scale
  else r.low * scale < point && point < r.high * scale

/-- The neighbours of the number on the grid of multiples of `10^exponent`: the
lower one, and whether the upper one is nearer. -/
def Rounding.neighbour (r : Rounding) (exponent : Int) : Nat × Bool :=
  let top := if 0 ≤ exponent then r.value else r.value * 10 ^ (-exponent).toNat
  let unit := if 0 ≤ exponent then 10 ^ exponent.toNat * r.denominator else r.denominator
  let below := top / unit
  let twice := 2 * (top % unit)
  (below, unit < twice || (unit == twice && below % 2 == 1))

/-- The hit on one grid, the nearer neighbour first. -/
def Rounding.hit? (r : Rounding) (exponent : Int) : Option Scientific :=
  let (below, upper) := r.neighbour exponent
  let first := if upper then below + 1 else below
  let second := if upper then below else below + 1
  if r.holds first exponent then some ⟨first, exponent⟩
  else if r.holds second exponent then some ⟨second, exponent⟩
  else none

/-- The number of zeros between the point and the first digit of a number below
one, counted up from `zeros`. -/
def leadingZeros (top denominator : Nat) : (fuel : Nat) → (zeros : Nat) → Nat
  | 0, zeros => zeros
  | fuel + 1, zeros =>
    if denominator ≤ top * 10 ^ (zeros + 1) then zeros
    else leadingZeros top denominator fuel (zeros + 1)

/-- The power of ten just above the number. -/
def Rounding.magnitude (r : Rounding) : Int :=
  if r.denominator ≤ r.value then ((toString (r.value / r.denominator)).length : Int)
  else -(leadingZeros r.value r.denominator 400 0 : Int)

/-- The first hit on the grids that have from `17 - fuel` digits on. -/
def Rounding.search (r : Rounding) (magnitude : Int) : (fuel : Nat) → Scientific
  | 0 => ⟨(r.neighbour (magnitude - 17)).1, magnitude - 17⟩
  | fuel + 1 => (r.hit? (magnitude - (17 - fuel : Nat))).getD (r.search magnitude fuel)

/-- Moves the zeros at the end of the digits into the exponent. -/
def Scientific.strip : (fuel : Nat) → Scientific → Scientific
  | 0, s => s
  | fuel + 1, s =>
    if s.digits % 10 = 0 ∧ s.digits ≠ 0 then strip fuel ⟨s.digits / 10, s.exponent + 1⟩ else s

/-- The shortest digits of a finite number, by its bits without the sign. -/
def shortest (bits : UInt64) : Scientific :=
  let field := ((bits >>> 52) &&& 0x7FF).toNat
  let fraction := (bits &&& 0xFFFFFFFFFFFFF).toNat
  if field = 0 ∧ fraction = 0 then ⟨0, 0⟩
  else
    let m := if field = 0 then fraction else fraction + 2 ^ 52
    let q : Int := (if field = 0 then 1 else field : Nat) - 1075
    let r := Rounding.ofBinary m q (fraction == 0 && 1 < field)
    Scientific.strip 20 (r.search r.magnitude 17)

end ScriptModules.Decimal
