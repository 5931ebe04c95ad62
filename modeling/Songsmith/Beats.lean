import Songsmith.Number.Decimal

/-!
# Beats

Lengths may be written in beats. The ticks of a length in beats are computed in binary floating
point: the beats times the ticks of one beat, half a tick added, and the fraction cut off.
-/

namespace Songsmith.Beats

/-- The ticks of a length in beats, unless a number on the way is too large. -/
def ticks? (beats : Rat) (ticksPerBeat : Int) : Option Int := do
  let perBeat ← Binary64.nearest? ticksPerBeat
  let product ← Binary64.mul? beats perBeat
  let sum ← Binary64.add? product (1 / 2)
  some (truncate sum)

end Songsmith.Beats
