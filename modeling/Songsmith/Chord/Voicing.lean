import Songsmith.Chord.Basic

/-!
# Voicing near a reference

A chord is moved by whole octaves to where its root is nearest to that of a reference. Only the two
shifts on either side of the exact difference can be nearest, and not moving at all is preferred to
either when it is as good: of two equally near shifts the smaller one wins.
-/

namespace Songsmith.Chord

/-- The better of two octave shifts toward a root that is `difference` semitones away: the nearer,
and of two equally near ones the smaller. -/
def betterShift (difference best shift : Int) : Int :=
  let before := (difference - 12 * best).natAbs
  let after := (difference - 12 * shift).natAbs
  if after < before ∨ (after = before ∧ shift.natAbs < best.natAbs) then shift else best

/-- The octave shift that brings a root nearest to one that is `difference` semitones away. -/
def nearestShift (difference : Int) : Int :=
  let lower := difference / 12
  betterShift difference (betterShift difference 0 lower) (lower + 1)

/-- The chord in the octave nearest to a reference. -/
def nearestTo (c reference : Chord) : Chord :=
  { c with octave := c.octave + nearestShift (reference.rootPitch - c.rootPitch) }

end Songsmith.Chord
