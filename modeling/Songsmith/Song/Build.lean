import Songsmith.Document.Basic
import Songsmith.Harmony.Engine
import Songsmith.Midi.Score
import Songsmith.Track.Engine

/-!
# Songs

A song document has a section for the structure, one for the harmony and a list of tracks. The
harmony and every track are rendered from seeds of their own, drawn one after the other from the
seed of the song, so that the whole song is determined by that seed. Every setting is read as a
value of one kind; a value of another kind is an error where it is read.
-/

namespace Songsmith

/-- A rendered song. -/
structure Song where
  frame : Structure
  harmony : Timeline
  tracks : List Track

namespace Song

/-! ## Reading the document -/

/-- A setting of one kind, or its default. -/
def settingAt {α : Type} (read? : Document → Option α) (d : Document) (key : String) (default : α) :
    Except Error α := do
  match ← d.lookUp key with
  | some value => Document.expect key (read? value)
  | none => .ok default

/-- A setting of one kind that may be left out or null. -/
def optionAt {α : Type} (read? : Document → Option α) (d : Document) (key : String) :
    Except Error (Option α) := do
  match ← d.lookUp key with
  | none | some .null => .ok none
  | some value => (Document.expect key (read? value)).map some

/-- An integer setting, or its default. -/
def integerAt (d : Document) (key : String) (default : Int) : Except Error Int :=
  settingAt Document.integer? d key default

/-- A number setting, or its default. -/
def numberAt (d : Document) (key : String) (default : Number) : Except Error Number :=
  settingAt Document.number? d key default

/-- A setting that is on or off, or its default. -/
def truthAt (d : Document) (key : String) (default : Bool) : Except Error Bool :=
  settingAt (some ·.truth) d key default

/-- A section of the document. One that is missing is empty. -/
def sectionAt (d : Document) (key : String) : Except Error Document :=
  settingAt some d key (.mapping [])

/-- What is listed under a key: nothing, where the key is missing. -/
def itemsAt (d : Document) (key : String) : Except Error (List Document) :=
  settingAt Document.items? d key []

/-- The unit of lengths: the ticks of a beat, if it is given. -/
def unitAt (d : Document) (key : String) : Except Error (Option Int) :=
  optionAt Document.integer? d key

/-- The texts of a list under a key. -/
def textsOf (key : String) (d : Document) : Except Error (List Text) := do
  (← Document.expect key d.items?).mapM fun item => Document.expect key item.text?

/-- The structure of a song. -/
def readStructure (d : Document) : Except Error Structure := do
  Structure.ofBars (← integerAt d "bars" 16) (← integerAt d "beats_per_bar" 4)
    (← integerAt d "ticks_per_beat" 4) (← integerAt d "max_velocity" 127)

/-- A chord pattern: a text, or a mapping with settings of its own. A pattern that holds nothing is
as good as a blank one. -/
def readChordPattern : Document → Except Error ChordPattern
  | .text t => ChordPattern.make t
  | d => do
    let pattern ← d.get "pattern"
    let text ← if pattern.isEmpty then .ok [] else Document.expect "pattern" pattern.text?
    ChordPattern.make text (← optionAt (some ·.truth) d "minimize_chord_distance")
      (← optionAt Document.integer? d "crossover_pitch")

/-- A palette: a text or a list. -/
def readPalette : Document → Except Error PaletteInput
  | .text t => .ok (.text t)
  | d => (textsOf "chord_random_tables" d).map .names

/-- The harmony engine of a song. -/
def readHarmony (d : Document) : Traced HarmonyEngine := do
  let patterns ← Traced.ofExcept (itemsAt d "chord_patterns" >>= List.mapM readChordPattern)
  if patterns.isEmpty then
    Traced.report .noChordPatterns
    Traced.ofExcept (.error (.invalid .noChordPatterns))
  else
    let palettes ← Traced.ofExcept (itemsAt d "chord_random_tables" >>= List.mapM readPalette)
    let minimize ← Traced.ofExcept (truthAt d "minimize_chord_distance" true)
    let crossover ← Traced.ofExcept (integerAt d "crossover_pitch" Chord.defaultCrossover)
    Traced.ofExcept (HarmonyEngine.ofParts (patterns.map .pattern) palettes minimize crossover)

/-- The fragments of a group: a list, or a text of alternatives. -/
def readFragments : Document → Except Error FragmentsInput
  | .text t => .ok (.alternatives t)
  | d => (textsOf "groups" d).map .list

/-- The texts of a literal track: a single one, or a list of them. What holds nothing has none. -/
def readPatterns : Document → Except Error (List Text)
  | .text t => .ok [t]
  | d => if d.isEmpty then .ok [] else textsOf "patterns" d

/-- A track of literal pattern texts. -/
def readLiteral (d : Document) : Except Error LiteralTrack := do
  LiteralTrack.make (← readPatterns (← d.get "patterns")) (← unitAt d "ticks_per_beat")

/-- A track of fragments that follow a layout. -/
def readFragmentTrack [Machine] (d : Document) : Except Error FragmentTrack := do
  let layout ← Document.expect "pattern_string" (← d.get "pattern_string").text?
  let groups ← Document.expect "groups" (← d.get "groups").entries?
  let groups ← groups.mapM fun (key, fragments) => (readFragments fragments).map (key, ·)
  FragmentTrack.make layout groups (← integerAt d "pattern_ticks" 16)
    (← truthAt d "unique_pattern_parts" true) (← unitAt d "ticks_per_beat")

/-- The pattern that a crescendo is framed by, with the unit of its own lengths. -/
def readFrame (d : Document) (key unit : String) : Except Error (Option PatternSource) := do
  let text ← optionAt Document.text? d key
  let unit ← unitAt d unit
  return text.map (⟨·, unit⟩)

/-- A crescendo track. -/
def readCrescendo (d : Document) : Except Error CrescendoTrack := do
  let body ← Document.expect "pattern" (← d.get "pattern").text?
  let ticks ← Document.expect "pattern_ticks" (← d.get "pattern_ticks").integer?
  CrescendoTrack.make ⟨body, ← unitAt d "ticks_per_beat"⟩
    (← readFrame d "prefix_pattern" "prefix_ticks_per_beat")
    (← readFrame d "suffix_pattern" "suffix_ticks_per_beat") ticks
    (← numberAt d "min_velocity" (.integer 1)) (← numberAt d "max_velocity" (.integer 127))
    (← numberAt d "velocity_exponent" (.integer 1))

/-- The engine of a track, by its name. -/
def readEngine [Machine] (d : Document) (trackName : Document) : Except Error TrackEngine := do
  let engine ← settingAt some d "engine" (.text "string".toList)
  match engine.text?.map String.ofList with
  | some "string" => (readLiteral d).map .literal
  | some "random_fragment" => (readFragmentTrack d).map .fragments
  | some "crescendo" => (readCrescendo d).map .crescendo
  | _ => .error (.invalid (.engine (← engine.shown "engine") (← trackName.shown "name")))

/-- The wildcards of a track and their pitches. -/
def readWildcards (d : Document) : Except Error (List (Text × Int)) := do
  (← settingAt Document.entries? d "wildcards" []).mapM fun (key, pitch) =>
    (Document.expect "wildcards" pitch.integer?).map (key, ·)

/-- The name of a track; one that has none is named by its number. -/
def readName (d : Document) (index : Nat) : Except Error Document :=
  settingAt some d "name" (.text ("track ".toList ++ Integer.digits (index + 1 : Nat)))

/-- The track of a pattern that has been rendered, with the other settings of its entry. -/
def readTrack (d : Document) (name : Text) (pattern : Pattern) (wildcards : List (Text × Int)) :
    Except Error Track := do
  Track.make name (← integerAt d "channel" 0) pattern
    (← integerAt d "base_pitch" Track.defaultBasePitch) wildcards (← truthAt d "follow_chords" true)

/-! ## Building -/

/-- The bound of the seeds that are drawn. -/
def seedBound : Nat := 0x80000000

section
variable {σ : Type} [Source σ]

/-- Draws the seed of the harmony or of a track. -/
def drawSeed (source : σ) : Int × σ :=
  let (seed, source) := Source.below source seedBound (by decide)
  ((seed : Nat), source)

/-- Renders a track from a seed. -/
def buildTrack [Machine] (frame : Structure) (index : Nat) (seed : Int) (d : Document) :
    Traced Track := do
  let name ← Traced.ofExcept (readName d index)
  let engine ← Traced.ofExcept (readEngine d name)
  let wildcards ← Traced.ofExcept (readWildcards d)
  let pattern ← engine.render frame seed (wildcards.flatMap (·.1))
  let text ← Traced.ofExcept pattern.write
  let name ← Traced.ofExcept (Document.expect "name" name.text?)
  Traced.report (.track name text)
  Traced.ofExcept (readTrack d name pattern wildcards)

/-- Renders tracks, the first one having the number `index`. -/
def buildTracks [Machine] (frame : Structure) :
    (index : Nat) → List Document → σ → Traced (List Track)
  | _, [], _ => pure []
  | index, d :: rest, source => do
    let (seed, source) := drawSeed source
    let track ← buildTrack frame index seed d
    let tracks ← buildTracks frame (index + 1) rest source
    return track :: tracks

/-- Renders a song by the seeds that are drawn from a source. -/
def buildFrom [Machine] (d : Document) (source : σ) : Traced Song := do
  let frame ← Traced.ofExcept (sectionAt d "structure" >>= readStructure)
  let harmonySection ← Traced.ofExcept (sectionAt d "harmony")
  let engine ← readHarmony harmonySection
  let (seed, source) := drawSeed source
  let harmony ← engine.render frame seed
  Traced.reportOk (harmony.sectionCount.map (.rendered frame.ticks))
  let entries ← Traced.ofExcept (itemsAt d "tracks")
  let tracks ← buildTracks frame 0 entries source
  return ⟨frame, harmony, tracks⟩

end

/-- Renders a song from a seed. Without a seed nothing is rendered, though the structure is read. -/
def build [Machine] (d : Document) (seed : Option Int) : Traced Song :=
  match seed with
  | some seed => buildFrom d (Twister.ofSeed seed)
  | none => do
    let _ ← Traced.ofExcept (sectionAt d "structure" >>= readStructure)
    Traced.ofExcept (.error (.missingValue .seed))

end Song

end Songsmith
