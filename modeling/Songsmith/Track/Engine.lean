import Songsmith.Track.Crescendo
import Songsmith.Track.Layout
import Songsmith.Track.Literal

/-!
# Track engines

A track is rendered by one of three engines: literal pattern texts, fragments that follow a layout,
or a crescendo. All have the same interface: the structure of the song, a seed and the declared
wildcard characters go in, and a pattern comes out.
-/

namespace Songsmith

/-- A layout and what its parts are made by. -/
structure FragmentTrack where
  layout : Text
  rule : PartRule

namespace FragmentTrack

/-- The track of a layout. The length of its parts has to be positive. -/
def make [Machine] (layout : Text) (groups : List (Text × FragmentsInput)) (ticks : Int)
    (unique : Bool) (ticksPerBeat : Option Int) : Except Error FragmentTrack :=
  if ticks ≤ 0 then .error (.invalid .partTicks)
  else (FragmentGroups.ofEntries groups).map fun gs =>
    ⟨layout, ⟨gs, ticks.toNat, unique, ticksPerBeat⟩⟩

/-- The notice of a part that was made. -/
def partNotice (p : Part) : Notice := .part [p.group, p.digit] p.text

/-- Renders a pattern by the draws of a source. -/
def renderFrom {σ : Type} [Machine] [Source σ] (track : FragmentTrack) (song : Structure)
    (source : σ) (wildcards : Text) : Traced Pattern := do
  let layout := Layout.generate track.rule track.layout source
  Traced.reportAll (layout.made.map partNotice)
  let text ← Traced.ofExcept layout.text
  Traced.ofExcept (Pattern.parse text track.rule.ticksPerBeat wildcards song.maxVelocity)

/-- Renders a pattern from a seed. -/
def render [Machine] (track : FragmentTrack) (song : Structure) (seed : Int) (wildcards : Text) :
    Traced Pattern :=
  track.renderFrom song (Twister.ofSeed seed) wildcards

end FragmentTrack

/-- The engine of a track. -/
inductive TrackEngine where
  | literal (track : LiteralTrack)
  | fragments (track : FragmentTrack)
  | crescendo (track : CrescendoTrack)

/-- Renders the pattern of a track. -/
def TrackEngine.render [Machine] (engine : TrackEngine) (song : Structure) (seed : Int)
    (wildcards : Text) : Traced Pattern :=
  match engine with
  | literal track => track.render song seed wildcards
  | fragments track => track.render song seed wildcards
  | crescendo track => track.render song wildcards

end Songsmith
