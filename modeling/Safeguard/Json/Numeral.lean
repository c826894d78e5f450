import Safeguard.Scalar

/-!
# Numbers in JSON text

A number in the text is a sign, whole digits, and perhaps a fraction and a power
of ten. Its value is found the quick way: as many digits as fit into 64 bits form
a significand, the digits behind them only move the point, and one rounding
multiplication or division by a power of ten follows. A number written without
fraction and exponent that fits into 64 bits stays a whole number.

## Main definitions

* `Json.Fault`: why a text was refused.
* `Json.Numeral`: a number as it is written.
* `Json.Numeral.read`: the number it stands for.
-/

namespace Safeguard.Json

/-- Why a text was refused: it ended too early, it is no JSON, or it is JSON that
does not fit what was asked for. -/
inductive Fault where
  | eof
  | syntaxError
  | data
deriving DecidableEq, Repr

/-- A number as it is written. -/
structure Numeral where
  /-- Whether it starts with a minus sign. -/
  negative : Bool
  /-- The digits before the point. -/
  whole : List Nat
  /-- The digits after the point; none if there is no point. -/
  fraction : List Nat
  /-- Whether the exponent is negative, and its digits. -/
  exponent : Option (Bool × List Nat)
deriving DecidableEq, Repr

/-- What a written number stands for. -/
inductive Number where
  | natural (n : Nat)
  | real (x : Float)

/-- The largest significand. -/
abbrev largestWord : Nat := UInt64.size - 1

/-- The largest exponent that is counted out. -/
abbrev largestExponent : Nat := 2147483647

/-- Appends digits to a significand until one would not fit any more, and returns
the digits left over. -/
def absorb (significand : Nat) : List Nat → Nat × List Nat
  | [] => (significand, [])
  | d :: rest =>
    if significand * 10 + d ≤ largestWord then absorb (significand * 10 + d) rest
    else (significand, d :: rest)

/-- The whole number with these digits. -/
def ofDigits (digits : List Nat) : Nat := digits.foldl (fun n d => n * 10 + d) 0

/-- The power of ten as a floating-point number. -/
def tenTo (exponent : Nat) : Float := Float.ofScientific 1 false exponent

/-- Scales a number by a power of ten, in steps of at most `10 ^ 308`. A result
beyond the largest finite number is refused. -/
def scale (x : Float) (exponent : Int) : Except Fault Float :=
  if exponent.natAbs ≤ 308 then
    if 0 ≤ exponent then
      let scaled := x * tenTo exponent.natAbs
      if scaled.isInf then .error .syntaxError else .ok scaled
    else .ok (x / tenTo exponent.natAbs)
  -- Zero stays zero however far it is scaled.
  else if x == 0 then .ok x
  else if 0 ≤ exponent then .error .syntaxError
  else scale (x / tenTo 308) (exponent + 308)
termination_by (-exponent).toNat

namespace Numeral

/-- Applies the sign. -/
def signed (n : Numeral) (x : Float) : Float := if n.negative then -x else x

/-- The number that a significand and a power of ten give. -/
def scaled (n : Numeral) (significand : Nat) (exponent : Int) : Except Fault Number :=
  (scale (UInt64.ofNat significand).toFloat exponent).map (.real ∘ n.signed)

/-- The number a numeral stands for; one that is too large is refused. -/
def read (n : Numeral) : Except Fault Number :=
  let (head, left) := absorb 0 n.whole
  if left = [] ∧ n.fraction = [] ∧ n.exponent = none then
    if n.negative then .ok (.real (-(UInt64.ofNat head).toFloat)) else .ok (.natural head)
  else
    let (significand, unread) := absorb head n.fraction
    -- Whole digits left over raise the place, fraction digits taken in lower it.
    let place : Int := left.length - (n.fraction.length - unread.length : Nat)
    match n.exponent with
    | none => n.scaled significand place
    | some (below, digits) =>
      let shift := ofDigits digits
      -- Such a power leaves only zero or nothing finite.
      if largestExponent < shift then
        if significand ≠ 0 ∧ !below then .error .syntaxError else .ok (.real (n.signed 0))
      else n.scaled significand (if below then place - shift else place + shift)

end Numeral

end Safeguard.Json
