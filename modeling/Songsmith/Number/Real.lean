import Songsmith.Number.Decimal

/-!
# Numbers of either kind

A setting that is a real number may be given as an integer of any size or as a machine number. Two
integers are subtracted exactly; everything else is done with machine numbers, for which an integer
may be too large.
-/

namespace Songsmith

/-- An integer or a machine number. -/
inductive Number where
  | integer (n : Int)
  | real (x : Float)

namespace Number

/-- The machine number nearest to an integer. -/
def floatOfInt (n : Int) : Except Error Float :=
  match Binary64.floatOfInt? n with
  | some x => .ok x
  | none => .error (.overflow .integer)

/-- The machine number nearest to a number. -/
def toFloat : Number → Except Error Float
  | integer n => floatOfInt n
  | real x => .ok x

/-- The difference of two numbers. -/
def sub : Number → Number → Except Error Number
  | integer n, integer m => .ok (integer (n - m))
  | x, y => do return real ((← x.toFloat) - (← y.toFloat))

/-- The absolute value of a number. -/
def abs : Number → Number
  | integer n => integer n.natAbs
  | real x => real x.abs

/-- The number is at least `n`. -/
def atLeast (n : Nat) : Number → Bool
  | integer m => (n : Int) ≤ m
  | real x => Float.ofNat n ≤ x

end Number

/-- The integer part of a machine number, toward zero. -/
def truncateFloat (x : Float) : Except Error Int :=
  match Binary64.ofFloat? x with
  | some r => .ok (truncate r)
  | none => if x.isNaN then .error (.invalid .notANumber) else .error (.overflow .infinity)

/-- The integer nearest to a machine number, a tie to the even one. -/
def roundFloat (x : Float) : Except Error Int :=
  match Binary64.ofFloat? x with
  | some r => .ok (roundHalfEven r)
  | none => if x.isNaN then .error (.invalid .notANumber) else .error (.overflow .infinity)

end Songsmith
