import Safeguard.Scalar

/-!
# The shortest decimal that reads back

A positive binary fraction `m * 2 ^ q` is the rounding of every real in an
interval around it. Among the decimals of that interval the library writes the
one on the coarsest grid `10 ^ p`, and on that grid the one nearest to the
fraction. Of two equally near ones a rule for ties picks one. Everything is compared
in whole numbers, so no rounding occurs on the way.

## Main definitions

* `Decimal`: a whole number times a power of ten.
* `Decimal.Tie`: which of two equally near decimals is written.
* `Decimal.Interval`: the reals that round to a binary fraction.
* `Decimal.shortest`: the decimal that is written.
* `Decimal.Magnitude`: a floating-point number taken apart for writing.
-/

namespace Safeguard

/-- The number `digits * 10 ^ exponent`. -/
structure Decimal where
  /-- The significant digits. -/
  digits : Nat
  /-- The power of ten they are scaled by. -/
  exponent : Int
deriving DecidableEq, Repr

namespace Decimal

/-- Which of two neighbouring decimals is written for a number halfway between them. -/
inductive Tie where
  /-- The one whose last digit is even. -/
  | even
  /-- The one that is farther from zero. -/
  | away
deriving DecidableEq, Repr

/-- Whether a tie goes to the neighbour with fewer units of the last place. -/
def Tie.goesBelow (tie : Tie) (below : Nat) : Bool :=
  match tie with
  | .even => below % 2 = 0
  | .away => false

/-- The reals that round to a binary fraction, in units of a quarter of its last
binary place. -/
structure Interval where
  /-- The lower end. -/
  low : Nat
  /-- The fraction itself. -/
  mid : Nat
  /-- The upper end. -/
  high : Nat
  /-- Whether the ends belong to the interval. -/
  closed : Bool
  /-- The power of two that one unit is. -/
  unit : Int

/-- The interval of `mantissa * 2 ^ exponent`. Below a power of two the
neighbouring fraction is only half as far, and a tie rounds to the even
mantissa. -/
def Interval.around (mantissa : Nat) (exponent : Int) : Interval where
  low := 4 * mantissa - if mantissa = 4503599627370496 ∧ -1074 < exponent then 1 else 2
  mid := 4 * mantissa
  high := 4 * mantissa + 2
  closed := mantissa % 2 = 0
  unit := exponent - 2

/-- The nearest multiple of `10 ^ place` inside the interval, as a count of that
power, if there is one. -/
def Interval.onGrid? (tie : Tie) (i : Interval) (place : Int) : Option Nat :=
  let unit := Nat.pow 2 i.unit.toNat * Nat.pow 10 (-place).toNat
  let grid := Nat.pow 10 place.toNat * Nat.pow 2 (-i.unit).toNat
  let inside (c : Nat) : Bool :=
    if i.closed then i.low * unit ≤ c * grid && c * grid ≤ i.high * unit
    else i.low * unit < c * grid && c * grid < i.high * unit
  -- If any point of the grid lies inside, one of these two neighbours does.
  let below := i.mid * unit / grid
  let above := below + 1
  match inside below, inside above with
  | true, true =>
    let toBelow := i.mid * unit - below * grid
    let toAbove := above * grid - i.mid * unit
    if toBelow < toAbove ∨ toBelow = toAbove ∧ tie.goesBelow below then some below else some above
  | true, false => some below
  | false, true => some above
  | false, false => none

/-- A power of ten above every number below `2 ^ bits`. -/
def topPlace (bits : Int) : Int := bits * 30103 / 100000 + 2

/-- The coarsest grid that meets the interval of `mantissa * 2 ^ exponent`, and
the point on it. Seventeen places below the leading digit always suffice, so the
search is bounded. -/
def shortest (tie : Tie) (mantissa : Nat) (exponent : Int) : Decimal :=
  let interval := Interval.around mantissa exponent
  let top := topPlace (mantissa.log2 + 1 + exponent)
  let found := (List.range 24).findSome? fun (step : Nat) =>
    let place := top - step
    -- On a very coarse grid the nearest point is zero, which is no decimal of it.
    (interval.onGrid? tie place).bind fun c =>
      if c = 0 then none else some (Decimal.mk c place)
  found.getD ⟨mantissa, 0⟩

/-- A floating-point number as it is written: undefined, or a sign with
infinity, zero or a positive decimal. -/
inductive Magnitude where
  | undefined
  | infinite (negative : Bool)
  | zero (negative : Bool)
  | finite (negative : Bool) (value : Decimal)
deriving DecidableEq, Repr

/-- Takes a floating-point number apart. -/
def Magnitude.ofFloat (tie : Tie) (x : Float) : Magnitude :=
  match x.toModel.unpack with
  | .notANumber => .undefined
  | .infinity sign => .infinite (sign == .negative)
  | .zero sign => .zero (sign == .negative)
  | .finite sign mantissa exponent _ =>
    .finite (sign == .negative) (shortest tie mantissa exponent)

end Decimal

end Safeguard
