import Safeguard.Decimal.Shortest

/-!
# Writing a decimal

A decimal with digits `d₁ … dₙ` has a point position `k`: its value is
`0.d₁ … dₙ * 10 ^ k`. The positional layout writes out every place. The
scientific layout puts the point behind the first digit and names the power of
ten. Messages use the positional layout throughout; saved configurations switch
to the scientific one outside a window of point positions. Where two decimals are
equally near to a number, messages take the one farther from zero and saved
configurations the even one.

## Main definitions

* `Decimal.positional`, `Decimal.scientific`: the two layouts.
* `Decimal.plainText`: a floating-point number in a message.
* `Decimal.savedText?`: a floating-point number in a saved configuration.
-/

namespace Safeguard.Decimal

/-- The digits, most significant first. -/
def characters (d : Decimal) : List Char := (Nat.repr d.digits).toList

/-- The point position: how many places the leading digit is left of the unit,
counted from the point. -/
def point (d : Decimal) : Int := d.characters.length + d.exponent

/-- That many zeros. -/
def zeros (n : Nat) : List Char := List.replicate n '0'

/-- Every place written out; `whole` follows a number without fraction. -/
def positional (whole : List Char) (d : Decimal) : List Char :=
  -- A whole number.
  if 0 ≤ d.exponent then d.characters ++ zeros d.exponent.toNat ++ whole
  -- The point falls among the digits.
  else if 0 < d.point then
    d.characters.take d.point.toNat ++ '.' :: d.characters.drop d.point.toNat
  -- The point stands before all digits.
  else '0' :: '.' :: zeros (-d.point).toNat ++ d.characters

/-- An integer with its sign. -/
def signedCharacters (n : Int) : List Char :=
  (if n < 0 then '-' else '+') :: (Nat.repr n.natAbs).toList

/-- The point behind the first digit, then the power of ten with its sign. -/
def scientific (d : Decimal) : List Char :=
  let fraction := d.characters.drop 1
  d.characters.take 1 ++ (if fraction = [] then [] else '.' :: fraction) ++
    'e' :: signedCharacters (d.point - 1)

/-- A minus sign if asked for. -/
def sign (negative : Bool) : List Char := if negative then ['-'] else []

/-- A number in a message: every place is written out, a whole number has no
fraction, the sign of zero is kept, and ties go away from zero. -/
def plainText (x : Float) : List Char :=
  match Magnitude.ofFloat .away x with
  | .undefined => ['N', 'a', 'N']
  | .infinite negative => sign negative ++ ['i', 'n', 'f']
  | .zero negative => sign negative ++ ['0']
  | .finite negative d => sign negative ++ positional [] d

/-- The point positions for which a saved number is written out. -/
def writtenOut (point : Int) : Bool := -5 < point && point ≤ 16

/-- A number in a saved configuration: whole numbers end in `.0`, very large and
very small ones use the scientific layout, ties go to the even digit, and numbers without
a finite value have no text. -/
def savedText? (x : Float) : Option (List Char) :=
  match Magnitude.ofFloat .even x with
  | .undefined => none
  | .infinite _ => none
  | .zero negative => some (sign negative ++ ['0', '.', '0'])
  | .finite negative d =>
    some (sign negative ++ if writtenOut d.point then positional ['.', '0'] d else scientific d)

end Safeguard.Decimal
