import Songsmith.Notice
import Songsmith.Pattern.Parser
import Songsmith.Pattern.Shorthand
import Songsmith.Random.Twister
import Songsmith.Structure

/-!
# Literal tracks

A literal track draws one of its pattern texts, expands the shorthand in it and reads it.
-/

namespace Songsmith

/-- Pattern texts, at least one, and the unit of their lengths. -/
structure LiteralTrack where
  texts : List Text
  ticksPerBeat : Option Int
  nonempty : texts ≠ []

namespace LiteralTrack

/-- The track of pattern texts, of which there has to be one. -/
def make (texts : List Text) (ticksPerBeat : Option Int) : Except Error LiteralTrack :=
  if h : texts = [] then .error (.invalid .noPatterns) else .ok ⟨texts, ticksPerBeat, h⟩

/-- Renders a pattern by the draws of a source. -/
def renderFrom {σ : Type} [Machine] [Source σ] (track : LiteralTrack) (song : Structure)
    (source : σ) (wildcards : Text) : Traced Pattern := do
  let text := (Source.pick source track.texts track.nonempty).1
  Traced.report (.patternText text)
  let expanded ← Traced.ofExcept (Shorthand.expand text)
  Traced.ofExcept (Pattern.parse expanded track.ticksPerBeat wildcards song.maxVelocity)

/-- Renders a pattern from a seed. -/
def render [Machine] (track : LiteralTrack) (song : Structure) (seed : Int) (wildcards : Text) :
    Traced Pattern :=
  track.renderFrom song (Twister.ofSeed seed) wildcards

end LiteralTrack

end Songsmith
