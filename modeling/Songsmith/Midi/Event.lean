import Songsmith.Cycle
import Songsmith.Harmony.Query
import Songsmith.Notice
import Songsmith.Pattern.Basic

/-!
# Note events

The notes of a song as events at song ticks. A pattern is looped over the song, and its notes follow
the root of the chord that sounds when they start (`patternEvents`). A legato note is released when
the next entry starts: after the next note has been struck, so that the two overlap, unless that
note has the same number. The chords of a timeline are sustained triads (`chordEvents`).
-/

namespace Songsmith

/-- A note is struck or released. -/
inductive NoteChange where
  | on
  | off
deriving Repr, DecidableEq

/-- A note that is struck or released at a tick of the song. -/
structure NoteEvent where
  tick : Int
  change : NoteChange
  note : Int
  velocity : Int := 0
deriving Repr, DecidableEq

/-- The order of events at the same tick. -/
inductive Phase where
  | release
  | strike
  | legatoRelease
deriving Repr, DecidableEq

/-- The position of a phase in its tick. -/
def Phase.rank : Phase → Nat
  | release => 0
  | strike => 1
  | legatoRelease => 2

/-- An event and its phase. -/
structure PhasedEvent where
  phase : Phase
  event : NoteEvent
deriving Repr, DecidableEq

/-- Events go by tick, and by phase within a tick. -/
def PhasedEvent.le (a b : PhasedEvent) : Bool :=
  a.event.tick < b.event.tick || (a.event.tick == b.event.tick && a.phase.rank ≤ b.phase.rank)

namespace PatternEvents

/-- How the pitches of a pattern are placed: the base pitch, and the timeline whose chords they
follow. -/
structure Placement where
  basePitch : Int
  harmony : Option Timeline

/-- The root of the chord that notes at a tick follow. -/
def Placement.root (p : Placement) (tick : Int) : Int :=
  match p.harmony.bind (·.chord? tick) with
  | some c => c.rootPitch
  | none => 0

/-- The number of the note that an occurrence of an entry asks for. -/
def requested? (p : Placement) (o : Occurrence Entry) : Option Int :=
  if o.item.isNote then o.item.pitch.map (p.basePitch + · + p.root o.start) else none

/-- The number exists. -/
def inRange (note : Int) : Bool := 0 ≤ note && note ≤ 127

/-- The number of the note that an occurrence of an entry strikes. -/
def struck? (p : Placement) (o : Occurrence Entry) : Option Int :=
  (requested? p o).filter inRange

/-- The note that is still held after an occurrence. -/
def heldAfter? (p : Placement) (o : Occurrence Entry) : Option Int :=
  if o.item.legato then struck? p o else none

/-- The note of an occurrence is struck. -/
def strikes (o : Occurrence Entry) (note : Option Int) : List PhasedEvent :=
  note.toList.map fun n => ⟨.strike, ⟨o.start, .on, n, o.item.velocity⟩⟩

/-- A held note is released at the start of an occurrence that strikes `note`: behind that note if
it is another one. -/
def heldRelease (o : Occurrence Entry) (held note : Option Int) : List PhasedEvent :=
  held.toList.map fun n =>
    ⟨if note.isSome ∧ note ≠ some n then .legatoRelease else .release, ⟨o.start, .off, n, 0⟩⟩

/-- A note that is not held is released at the end of its occurrence. -/
def ownRelease (o : Occurrence Entry) (note : Option Int) : List PhasedEvent :=
  if o.item.legato then []
  else note.toList.map fun n => ⟨.release, ⟨o.start + o.ticks, .off, n, 0⟩⟩

/-- The events of an occurrence before which the note `held` is held. -/
def occurrenceEvents (p : Placement) (held : Option Int) (o : Occurrence Entry) :
    List PhasedEvent :=
  strikes o (struck? p o) ++ heldRelease o held (struck? p o) ++ ownRelease o (struck? p o)

/-- The note that is held at the end is released there. -/
def lastRelease (ticks : Nat) (held : Option Int) : List PhasedEvent :=
  held.toList.map fun n => ⟨.release, ⟨ticks, .off, n, 0⟩⟩

/-- The events of occurrences in the order in which the occurrences cause them. -/
def causedEvents (p : Placement) (ticks : Nat) (os : List (Occurrence Entry)) :
    List PhasedEvent :=
  let held := os.map (heldAfter? p)
  ((none :: held).zip os).flatMap (fun (held, o) => occurrenceEvents p held o) ++
    lastRelease ticks (held.getLast?.getD none)

/-- Notices of the notes that are left out because their numbers do not exist. A number that is too
long to be written cannot be reported. -/
def skipped (p : Placement) (os : List (Occurrence Entry)) : List (Except Error Notice) :=
  os.filterMap fun o =>
    ((requested? p o).filter (!inRange ·)).map fun note =>
      (Integer.write note).map (.noteSkipped · o.start)

end PatternEvents

/-- The note events of a pattern that is looped over a number of ticks, in order. Wildcards are
replaced by the pitches that `offsets` gives them. -/
def patternEvents (pattern : Pattern) (ticks : Int) (placement : PatternEvents.Placement)
    (offsets : List (Text × Int)) : Traced (List NoteEvent) := do
  let pattern ← Traced.ofExcept (pattern.assign offsets)
  let occurrences := Cycle.lay Entry.ticks pattern.entries ticks.toNat
  Traced.reportEach [] (PatternEvents.skipped placement occurrences)
  return ((PatternEvents.causedEvents placement ticks.toNat occurrences).mergeSort
    PhasedEvent.le).map PhasedEvent.event

namespace ChordEvents

/-- The velocity of chords. -/
def defaultVelocity : Int := 90

/-- The triad of a run is struck at its start, and released at its end. -/
def runEvents (basePitch velocity : Int) (r : ChordRun) : Except Error (List NoteEvent) :=
  match r.chord with
  | none => .ok []
  | some c => (c.pitches basePitch).map fun pitches =>
    pitches.map (⟨r.tick, .on, ·, velocity⟩) ++ pitches.map (⟨r.tick + r.length, .off, ·, 0⟩)

end ChordEvents

/-- The note events of the chords of a timeline, in order. -/
def chordEvents (harmony : Timeline) (basePitch velocity : Int) :
    Except Error (List NoteEvent) := do
  let runs ← harmony.runs
  let events ← runs.mapM (ChordEvents.runEvents basePitch velocity)
  return events.flatten.mergeSort fun a b => a.tick ≤ b.tick

end Songsmith
