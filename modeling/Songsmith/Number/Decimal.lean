import Songsmith.Number.Binary64
import Songsmith.Number.Integer

/-!
# Decimal numbers as texts

A decimal number has a sign, digits around an optional point and an optional power of ten; the words
for infinity and for "not a number" are read as well. Digits may be those of any script and grouped
by low lines, as in integers. A number stands for the binary number nearest to it, computed from
the exact decimal value (`Decimal.nearest?`), and the shortest exact text of a binary number with
seventeen significant digits is `Decimal.write17`.
-/

namespace Songsmith

/-- The number `significand * 10 ^ exponent`, with a sign that zero has too. -/
structure Decimal where
  negative : Bool
  significand : Nat
  exponent : Int
deriving Repr, DecidableEq

/-- What a text for a real number says. -/
inductive RealText where
  | finite (d : Decimal)
  | infinite (negative : Bool)
  | notANumber
deriving Repr, DecidableEq

namespace Decimal

/-- The power of ten with an integer exponent. -/
def tenPow (e : Int) : Rat :=
  if 0 ≤ e then (Nat.pow 10 e.toNat : Rat) else mkRat 1 (Nat.pow 10 (-e).toNat)

/-- The binary number nearest to the magnitude of `d`, unless it is too large. A number of more than
400 places before the point is too large, and one that starts more than 400 places behind it is
zero; neither power of ten is computed. -/
def magnitude? (d : Decimal) : Option Rat :=
  if d.significand = 0 then some 0
  else if d.exponent > 400 then none
  else if d.exponent + (d.significand.log2 / 3 + 1 : Nat) < -400 then some 0
  else Binary64.nearest? (d.significand * tenPow d.exponent)

/-- The binary number nearest to `d`, unless it is too large. -/
def nearest? (d : Decimal) : Option Rat :=
  d.magnitude?.map fun m => if d.negative then -m else m

/-- The machine number nearest to `d`. -/
def toFloat (d : Decimal) : Float :=
  match d.magnitude? with
  | some m => Binary64.toFloat d.negative m
  | none => if d.negative then -(1.0 / 0.0) else 1.0 / 0.0

/-- The power of ten behind the digits: nothing, or a mark, a sign and digits. -/
def readExponent? : Text → Option Int
  | [] => some 0
  | mark :: rest =>
    let (negative, digits) := Numeral.splitSign rest
    if (mark == 'e' || mark == 'E') && !digits.isEmpty && digits.all Char.isDigit then
      let n : Int := Numeral.value digits
      some (if negative then -n else n)
    else none

/-- Digits, a point with digits, and a power of ten; at least one digit before the power. -/
def readUnsigned? (negative : Bool) (text : Text) : Option Decimal :=
  let whole := text.takeWhile Char.isDigit
  let (fraction, rest) : Text × Text :=
    match text.dropWhile Char.isDigit with
    | '.' :: rest => (rest.takeWhile Char.isDigit, rest.dropWhile Char.isDigit)
    | rest => ([], rest)
  if whole.isEmpty && fraction.isEmpty then none
  else
    (readExponent? rest).map fun exponent =>
      ⟨negative, Numeral.value (whole ++ fraction), exponent - fraction.length⟩

end Decimal

namespace RealText

/-- Reads a real number. -/
def read? (text : Text) : Option RealText :=
  (Numeral.ungrouped? false (Numeral.plain text)).bind fun plain =>
    let (negative, body) := Numeral.splitSign plain
    let word := String.ofList (body.map Char.toLower)
    if word = "inf" ∨ word = "infinity" then some (.infinite negative)
    else if word = "nan" then some .notANumber
    else (Decimal.readUnsigned? negative body).map .finite

/-- The binary number that a text stands for, if it stands for a finite one. -/
def readFinite? (text : Text) : Option Rat :=
  match read? text with
  | some (.finite d) => d.nearest?
  | _ => none

/-- The machine number that a text stands for. -/
def readFloat? (text : Text) : Option Float :=
  (read? text).map fun
    | .finite d => d.toFloat
    | .infinite false => 1.0 / 0.0
    | .infinite true => -(1.0 / 0.0)
    | .notANumber => 0.0 / 0.0

end RealText

namespace Decimal

/-- The exponent of the greatest power of ten that is at most `x`, for positive `x`: one of the
four candidates around its binary logarithm. -/
def floorLog10 (x : Rat) : Int :=
  let guess := Binary64.floorLog2 x * 30103 / 100000
  if tenPow (guess + 2) ≤ x then guess + 2
  else if tenPow (guess + 1) ≤ x then guess + 1
  else if tenPow guess ≤ x then guess
  else guess - 1

/-- The seventeen significant digits of a positive `x`, and the exponent of the first of them. -/
def significant17 (x : Rat) : Nat × Int :=
  let e := floorLog10 x
  let n := (roundHalfEven (x * tenPow (16 - e))).toNat
  if n = Nat.pow 10 17 then (Nat.pow 10 16, e + 1) else (n, e)

/-- A point and the digits behind it, without the zeros at the end; nothing if nothing is left. -/
def fractionText (digits : Text) : Text :=
  match Text.dropEndWhile (· == '0') digits with
  | [] => []
  | rest => '.' :: rest

/-- An exponent with its sign and at least two digits. -/
def exponentText (e : Int) : Text :=
  let digits := Nat.toDigits 10 e.natAbs
  'e' :: (if e < 0 then '-' else '+') :: (if digits.length < 2 then '0' :: digits else digits)

/-- A number that is not negative with seventeen significant digits, zeros at the end left out:
positional from `10 ^ (-4)` on and below `10 ^ 17`, with a power of ten elsewhere. -/
def write17 (x : Rat) : Text :=
  if x = 0 then ['0']
  else
    let (n, e) := significant17 x
    let digits := Nat.toDigits 10 n
    if e < -4 ∨ 17 ≤ e then digits.take 1 ++ fractionText (digits.drop 1) ++ exponentText e
    else if 0 ≤ e then digits.take (e.toNat + 1) ++ fractionText (digits.drop (e.toNat + 1))
    else '0' :: fractionText (List.replicate ((-e).toNat - 1) '0' ++ digits)

/-- The text of a machine number, in the form of `write17`. -/
def writeFloat17 (x : Float) : Text :=
  let magnitude : Text :=
    match Binary64.ofFloat? x with
    | some r => write17 r.abs
    | none => if x.isNaN then "nan".toList else "inf".toList
  if Binary64.isNegative x && !x.isNaN then '-' :: magnitude else magnitude

end Decimal

end Songsmith
