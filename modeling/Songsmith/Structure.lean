import Songsmith.Number.Integer

/-!
# Song structure

The values that all parts of one song share: its length, the ticks of one beat and the greatest
velocity. All three are positive.
-/

namespace Songsmith

/-- What all parts of a song share. -/
structure Structure where
  /-- The length of the song. -/
  ticks : Nat
  ticksPerBeat : Nat
  /-- The velocity of an entry that states none, and the measure of all others. -/
  maxVelocity : Nat
  ticks_pos : 0 < ticks
  ticksPerBeat_pos : 0 < ticksPerBeat
  maxVelocity_pos : 0 < maxVelocity

namespace Structure

/-- The structure of given numbers, which have to be positive. -/
def ofTicks (ticks : Int) (ticksPerBeat maxVelocity : Int) : Except Error Structure :=
  if ht : 0 < ticks then
    if hb : 0 < ticksPerBeat then
      if hv : 0 < maxVelocity then
        .ok ⟨ticks.toNat, ticksPerBeat.toNat, maxVelocity.toNat,
          Integer.toNat_pos ht, Integer.toNat_pos hb, Integer.toNat_pos hv⟩
      else .error (.invalid .maxVelocity)
    else .error (.invalid .ticksPerBeat)
  else .error (.invalid .songTicks)

/-- The structure of a song of whole bars. -/
def ofBars (bars beatsPerBar ticksPerBeat maxVelocity : Int) : Except Error Structure :=
  if bars ≤ 0 ∨ beatsPerBar ≤ 0 then .error (.invalid .bars)
  else ofTicks (bars * beatsPerBar * ticksPerBeat) ticksPerBeat maxVelocity

end Structure

end Songsmith
