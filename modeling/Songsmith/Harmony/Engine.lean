import Songsmith.Harmony.Stamping
import Songsmith.Notice
import Songsmith.Random.Twister

/-!
# The harmony engine

An engine holds chord patterns, palettes and the settings that hold where a pattern has none of its
own. Rendering draws one of the patterns, resolves it and stamps it onto a song. All that is random
comes from one source, which for a seed is the generator of that seed.
-/

namespace Songsmith

/-- What a chord pattern may be given as. -/
inductive PatternInput where
  | text (text : Text)
  | pattern (pattern : ChordPattern)

/-- What a palette may be given as. -/
inductive PaletteInput where
  | text (text : Text)
  | names (names : List Text)
  | palette (palette : Palette)

/-- Chord patterns with all that is needed to render them. -/
structure HarmonyEngine where
  patterns : List ChordPattern
  palettes : List Palette
  minimize : Bool
  crossover : Int
  nonempty : patterns ≠ []

namespace HarmonyEngine

/-- The chord pattern that is given. -/
def readPattern : PatternInput → Except Error ChordPattern
  | .text text => ChordPattern.make text
  | .pattern pattern => .ok pattern

/-- The palette that is given. -/
def readPalette : PaletteInput → Except Error Palette
  | .text text => Palette.parse text
  | .names names => Palette.ofNames names
  | .palette palette => .ok palette

/-- The engine of patterns, of which there has to be one, and palettes. -/
def ofParts (patterns : List PatternInput) (palettes : List PaletteInput) (minimize : Bool)
    (crossover : Int) : Except Error HarmonyEngine := do
  let patterns ← patterns.mapM readPattern
  if h : patterns = [] then .error (.invalid .noChordPatterns)
  else
    let palettes ← palettes.mapM readPalette
    .ok ⟨patterns, palettes, minimize, crossover, h⟩

/-- The settings of a rendering: those of the pattern, or else those of the engine. -/
def settings (engine : HarmonyEngine) (pattern : ChordPattern) (song : Structure) :
    Stamping.Settings :=
  { crossover := pattern.crossover.getD engine.crossover
    minimize := pattern.minimize.getD engine.minimize
    ticksPerBeat := song.ticksPerBeat }

/-- Renders a song by the draws of a source. -/
def renderFrom {σ : Type} [Source σ] (engine : HarmonyEngine) (song : Structure)
    (source : σ) : Traced Timeline := do
  let (pattern, source) := Source.pick source engine.patterns engine.nonempty
  Traced.report (.chordPattern pattern.text)
  let resolution := Resolution.resolve engine.palettes pattern source
  Traced.reportAll (List.replicate resolution.restarts (.drawsExhausted pattern.text))
  let tokens ← Traced.ofExcept resolution.result
  Traced.report (.resolvedPattern (Resolution.write tokens))
  let timeline ← Traced.ofExcept
    (Stamping.timeline (engine.settings pattern song) song.ticks tokens)
  Traced.reportOk (timeline.sectionCount.map .sectionCount)
  Traced.reportOk (timeline.dump.map .chords)
  return timeline

/-- Renders a song from a seed. -/
def render (engine : HarmonyEngine) (song : Structure) (seed : Int) : Traced Timeline :=
  engine.renderFrom song (Twister.ofSeed seed)

end HarmonyEngine

end Songsmith
