import KvClient.Decimal.Digits

/-!
# The shortest decimal of a floating-point number

A finite number is shown by the fewest digits that read back as it, and among decimals with that
many digits by the one closest to it.  All arithmetic is on natural numbers, so it is exact.

## How it works

The number is `m · 2^q`.  The decimals that round to it fill an interval around it, which reaches
half way to its neighbours on either side; the ends belong to it when `m` is even.  For one digit,
two digits and so on up to seventeen, the two grid points next to the number are tried.

Lengths are counted in quarters of `2^q`, so that both ends of the interval are whole:  the number
is `4 · m`, its upper end `4 · m + 2`, and its lower end `4 · m - 2`, or `4 · m - 1` where the
neighbour below is twice as close.
-/

namespace KvClient.Decimal

/-- `digits · 10 ^ exponent`. -/
structure Numeral where
  significand : Nat
  exponent : Int
  deriving Repr, DecidableEq

/-! ## The parts of a floating-point number -/

/-- A finite positive number `mantissa · 2 ^ exponent`. -/
structure Binary where
  mantissa : Nat
  exponent : Int
  deriving Repr, DecidableEq

/-- Whether the sign bit is set. -/
def isNegative (x : Float) : Bool := x.toBits.toNat / 0x8000000000000000 == 1

/-- What the leading bit of a mantissa stands for; only the bits below it are stored. -/
def hiddenBit : Nat := 0x10000000000000

/-- The absolute value of a finite number. -/
def magnitude (x : Float) : Binary :=
  let bits := x.toBits.toNat
  let fraction := bits % hiddenBit
  let biased := bits / hiddenBit % 0x800
  if biased = 0 then ⟨fraction, -1074⟩ else ⟨hiddenBit + fraction, Int.ofNat biased - 1075⟩

/-- Whether the neighbour below is half as far away as the neighbour above. -/
def Binary.isNarrowBelow (b : Binary) : Bool := b.mantissa == hiddenBit && b.exponent > -1074

/-! ## The interval around a number -/

/-- The interval of reals that round to a number, as fractions over one denominator. -/
structure Interval where
  low : Nat
  middle : Nat
  high : Nat
  denominator : Nat
  closed : Bool

/-- The interval around a number. -/
def Binary.interval (b : Binary) : Interval :=
  let power := b.exponent - 2
  let unit := Nat.pow 2 power.toNat
  { low := (4 * b.mantissa - if b.isNarrowBelow then 1 else 2) * unit
    middle := 4 * b.mantissa * unit
    high := (4 * b.mantissa + 2) * unit
    denominator := Nat.pow 2 (-power).toNat
    closed := b.mantissa % 2 == 0 }

/-- The interval in units of `10 ^ k`. -/
def Interval.inUnits (i : Interval) (k : Int) : Interval :=
  let up := Nat.pow 10 (-k).toNat
  { i with
    low := i.low * up
    middle := i.middle * up
    high := i.high * up
    denominator := i.denominator * Nat.pow 10 k.toNat }

/-- Whether the whole number `d` lies in the interval. -/
def Interval.contains (i : Interval) (d : Nat) : Bool :=
  let x := d * i.denominator
  if i.closed then i.low ≤ x && x ≤ i.high else i.low < x && x < i.high

/-- The whole number in the interval that is closest to its middle, of the two around the middle.
A tie goes to the even one. -/
def Interval.nearest? (i : Interval) : Option Nat :=
  let d := i.middle / i.denominator
  match i.contains d, i.contains (d + 1) with
  | true, true =>
    let below := i.middle - d * i.denominator
    let above := (d + 1) * i.denominator - i.middle
    if below < above || (below == above && d % 2 == 0) then some d else some (d + 1)
  | true, false => some d
  | false, true => some (d + 1)
  | false, false => none

/-! ## The fewest digits -/

/-- The exponent `e` with `10 ^ e ≤ middle < 10 ^ (e + 1)`. -/
def Interval.leadingExponent (i : Interval) : Int :=
  let whole := i.middle / i.denominator
  if whole ≠ 0 then Int.ofNat (digits whole).length - 1
  else
    -- The least power of ten that lifts the number to one or more.
    let reciprocal := (i.denominator + i.middle - 1) / i.middle
    Int.negOfNat (digits (reciprocal - 1)).length

/-- The first grid with a point in the interval, from the coarsest of `count` grids. -/
def Interval.search (i : Interval) (k : Int) : Nat → Option Numeral
  | 0 => none
  | count + 1 =>
    match (i.inUnits k).nearest? with
    | some d => some ⟨d, k⟩
    | none => i.search (k - 1) count

/-- A numeral without the zeros at the end of its significand. -/
def Numeral.trim (n : Numeral) : Numeral :=
  if h : n.significand ≠ 0 ∧ n.significand % 10 = 0 then
    Numeral.trim ⟨n.significand / 10, n.exponent + 1⟩
  else n
termination_by n.significand
decreasing_by exact Nat.div_lt_self (by omega) (by omega)

/-- The shortest numeral of a finite number other than zero. -/
def Binary.shortest (b : Binary) : Numeral :=
  let i := b.interval
  match i.search i.leadingExponent 17 with
  | some n => n.trim
  | none => ⟨0, 0⟩

end KvClient.Decimal
