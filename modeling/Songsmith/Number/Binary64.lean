/-!
# Binary floating point, exactly

Lengths in beats, MIDI scales and velocity ratios are 64-bit binary floating-point numbers. A finite
one is kept as the rational number that it stands for. Each operation is then the operation of the
rationals followed by one rounding (`Binary64.nearest?`): to the nearest multiple of the spacing at
that magnitude, a tie to the even multiple, and to nothing when the result is `2 ^ 1024` or more.
-/

namespace Songsmith

/-- The integer nearest to `n / d`; of two equally near ones, the even one. -/
def roundQuotient (n : Int) (d : Nat) : Int :=
  let floor := n / d
  let twice := 2 * (n % d)
  if twice < d then floor
  else if twice > d then floor + 1
  else if floor % 2 = 0 then floor else floor + 1

/-- The integer nearest to `x`; of two equally near ones, the even one. -/
def roundHalfEven (x : Rat) : Int := roundQuotient x.num x.den

/-- The integer part of `x`, toward zero. -/
def truncate (x : Rat) : Int := x.num.tdiv x.den

namespace Binary64

/-- The power of two with an integer exponent. -/
def twoPow (e : Int) : Rat :=
  if 0 ≤ e then (Nat.pow 2 e.toNat : Rat) else mkRat 1 (Nat.pow 2 (-e).toNat)

/-- The exponent of the greatest power of two that is at most `|x|`, for `x` other than zero. -/
def floorLog2 (x : Rat) : Int :=
  let estimate : Int := (Nat.log2 x.num.natAbs : Int) - Nat.log2 x.den
  if twoPow estimate ≤ x.abs then estimate else estimate - 1

/-- The exponent of the spacing of the numbers around `x`: they have 53 places, down to the
smallest spacing of all, `2 ^ (-1074)`. -/
def spacingExponent (x : Rat) : Int := max (floorLog2 x - 52) (-1074)

/-- The number nearest to `x`, as a multiple of the spacing around it, and the exponent of the
spacing. -/
def rounded (x : Rat) : Int × Int :=
  let e := spacingExponent x
  (roundHalfEven (x / twoPow e), e)

/-- The number nearest to `x`, unless it is too large. -/
def nearest? (x : Rat) : Option Rat :=
  let (significand, e) := rounded x
  let y := (significand : Rat) * twoPow e
  if y.abs < twoPow 1024 then some y else none

/-- The product of two numbers, rounded. -/
def mul? (x y : Rat) : Option Rat := nearest? (x * y)

/-- The sum of two numbers, rounded. -/
def add? (x y : Rat) : Option Rat := nearest? (x + y)

/-- The quotient of two integers, rounded once. -/
def quotient? (n d : Int) : Option Rat := nearest? ((n : Rat) / d)

/-- The machine number of the value `x`, a number of this format; `negative` decides the sign of
zero. -/
def toFloat (negative : Bool) (x : Rat) : Float :=
  let (significand, e) := rounded x.abs
  let magnitude := (Float.ofInt significand).scaleB e
  if negative then -magnitude else magnitude

/-- The machine number nearest to an integer, unless it is too large. -/
def floatOfInt? (n : Int) : Option Float := (nearest? n).map (toFloat (n < 0))

/-- The sign bit of a machine number. -/
def isNegative (x : Float) : Bool := x.toBits >>> 63 == 1

/-- The value of a machine number, unless it is infinite or no number. -/
def ofFloat? (x : Float) : Option Rat :=
  let bits : Nat := x.toBits.toNat
  let fraction : Nat := bits % Nat.pow 2 52
  let exponent : Nat := bits / Nat.pow 2 52 % Nat.pow 2 11
  if exponent = 2047 then none
  else
    let magnitude : Rat :=
      if exponent = 0 then (fraction : Rat) * twoPow (-1074)
      else ((fraction + Nat.pow 2 52 : Nat) : Rat) * twoPow ((exponent : Int) - 1075)
    some (if isNegative x then -magnitude else magnitude)

end Binary64

end Songsmith
