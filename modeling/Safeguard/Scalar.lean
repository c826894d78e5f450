import Safeguard.Duration

/-!
# Arithmetic of token levels and delays

Token levels and backoff delays are fractions of tokens and of seconds. The
library computes them over any type of numbers with the operations below; the
running system takes binary floating point, and the exact rationals give the
ideal reading of the same formulas.

A number may fail to denote anything (`NaN` does not even equal itself), so
comparison is a plain test and `Scalar.min` and `Scalar.max` prefer the operand
that denotes something.

## Main definitions

* `Scalar`: the operations a type of numbers offers.
* `Scalar.seconds`: a span of time as a number of seconds.
* `Duration.ofSeconds?`: a number of seconds as the nearest span of time.
* `Scalar.power`: powers by repeated squaring, in a fixed order of multiplications.
-/

namespace Safeguard

/-- Numbers that levels and delays are computed with. -/
class Scalar (R : Type) extends Add R, Sub R, Mul R, Div R where
  /-- The number nearest to a count. -/
  ofNat : Nat → R
  /-- Whether the first number is known to be at most the second. -/
  le : R → R → Bool
  /-- The exact value, for a number that has a finite one. -/
  value? : R → Option Rat

namespace Scalar

variable {R : Type} [Scalar R]

/-- The number zero. -/
def zero : R := ofNat 0

/-- The number one. -/
def one : R := ofNat 1

/-- Whether the first number is known to be below the second. -/
def lt (a b : R) : Bool := le a b && !le b a

/-- Whether the number denotes nothing: it is not even at most itself. -/
def isUndefined (a : R) : Bool := !le a a

/-- Whether the number has a finite value. -/
def isFinite (a : R) : Bool := (value? a).isSome

/-- The smaller number; the other operand if one is undefined. -/
def min (a b : R) : R := if isUndefined a || lt b a then b else a

/-- The larger number; the other operand if one is undefined. -/
def max (a b : R) : R := if isUndefined a || lt a b then b else a

/-- A span of nanoseconds as a number of seconds: the whole seconds, plus the
remaining nanoseconds as a fraction. -/
def seconds (nanos : Nat) : R :=
  ofNat (nanos / nanosPerSecond) + ofNat (nanos % nanosPerSecond) / ofNat nanosPerSecond

/-- One step of repeated squaring: `result * base ^ exponent`. -/
def powerFrom (result base : R) (exponent : Nat) : R :=
  let result := if exponent % 2 = 1 then result * base else result
  if exponent / 2 = 0 then result else powerFrom result (base * base) (exponent / 2)
termination_by exponent

/-- The power of a number by repeated squaring, least significant bit first. -/
def power (base : R) (exponent : Nat) : R := powerFrom one base exponent

end Scalar

/-- The whole number nearest to a rational; a tie goes to the even neighbour. -/
def roundHalfEven (q : Rat) : Int :=
  let low := q.floor
  let excess := q - low
  if excess < 1 / 2 then low
  else if 1 / 2 < excess then low + 1
  else if low % 2 = 0 then low
  else low + 1

/-- The span of time nearest to a number of seconds, a tie going to the even
nanosecond. Negative, undefined and out-of-range numbers have none. -/
def Duration.ofSeconds? {R : Type} [Scalar R] (x : R) : Option Duration :=
  match Scalar.value? x with
  | none => none
  | some q => if q < 0 then none else Duration.ofNanos? (roundHalfEven (q * nanosPerSecond)).toNat

/-- Exact arithmetic: every number denotes itself. -/
instance : Scalar Rat where
  ofNat n := n
  le a b := decide (a ≤ b)
  value? := some

/-- The exact value of a floating-point number; infinities and undefined
numbers have none. -/
def floatValue? (x : Float) : Option Rat :=
  match x.toModel.unpack with
  | .zero _ => some 0
  | .finite sign mantissa exponent _ =>
    let magnitude : Rat :=
      if 0 ≤ exponent then (mantissa * Nat.pow 2 exponent.toNat : Nat)
      else mantissa / (Nat.pow 2 (-exponent).toNat : Nat)
    match sign with
    | .positive => some magnitude
    | .negative => some (-magnitude)
  | _ => none

/-- Binary floating point: every operation rounds to the nearest number. -/
instance : Scalar Float where
  ofNat := Float.ofNat
  le a b := decide (a ≤ b)
  value? := floatValue?

end Safeguard
