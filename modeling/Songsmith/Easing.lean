import Songsmith.Number.Real

/-!
# Easing

A power curve leads from one value to another as its argument goes from zero to one: in a straight
line for the exponent one, slowly at first for a greater one. A negative exponent takes the same
curve with the two ends exchanged.
-/

namespace Songsmith.Easing

/-- `t` raised to the absolute value of `exponent`. A power that is infinite although neither
argument is fails. -/
def power (t : Float) (exponent : Number) : Except Error Float := do
  let exponent ← exponent.abs.toFloat
  let result := Float.pow t exponent
  if result.isInf && t.isFinite && exponent.isFinite then .error (.overflow .power)
  else .ok result

/-- The point of the way from one value to another that the power curve has reached at `t`. -/
def between (t : Float) (start stop exponent : Number) : Except Error Float := do
  let way ← stop.sub start
  let eased ← power t exponent
  return (← start.toFloat) + (← way.toFloat) * eased

/-- The power curve from `low` to `high`, or from `high` to `low` for a negative exponent. -/
def curve (t : Float) (low high exponent : Number) : Except Error Float :=
  if exponent.atLeast 0 then between t low high exponent else between t high low exponent

end Songsmith.Easing
