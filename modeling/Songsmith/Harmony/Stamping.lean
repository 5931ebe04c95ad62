import Songsmith.Beats
import Songsmith.Chord.Voicing
import Songsmith.Cycle
import Songsmith.Harmony.Query
import Songsmith.Harmony.Resolution
import Songsmith.Structure

/-!
# Stamping a resolved pattern onto a song

The tokens of a resolved pattern are repeated until the song is full (`Cycle.lay`). Each becomes a
chord, voiced near the first one if so asked, and a length in ticks. Neighbours with equal harmony
are joined into one run that keeps the chord of its first part (`Run.merge`), and a section lasts
from one section mark to the next. Counting every run and every section down gives the columns of
the timeline.
-/

namespace Songsmith

/-- A chord and its length. -/
structure Run where
  chord : Chord
  ticks : Nat
deriving DecidableEq

/-- The numbers from `n` down to one. -/
def countdown (n : Nat) : List Int := (List.range n).map fun i => ((n - i : Nat) : Int)

namespace Run

/-- Puts a run in front of others, joined with the first one if it has the same harmony. -/
def prepend (r : Run) : List Run → List Run
  | [] => [r]
  | s :: rest =>
    if s.chord.sameHarmony r.chord then ⟨r.chord, r.ticks + s.ticks⟩ :: rest else r :: s :: rest

/-- Joins neighbours with equal harmony. A joined run keeps its first chord. -/
def merge (runs : List Run) : List Run := runs.foldr prepend []

/-- The chord of a run at each of its ticks. -/
def chords (r : Run) : List (Option Chord) := List.replicate r.ticks (some r.chord)

end Run

namespace Stamping

/-- A token with its chord and its length in ticks. -/
structure Stamp where
  startsSection : Bool
  chord : Chord
  ticks : Nat
  ticks_pos : 0 < ticks

/-- The settings of a rendering: the crossover, whether chords are voiced near the first one, and
the ticks of one beat. -/
structure Settings where
  crossover : Int
  minimize : Bool
  ticksPerBeat : Nat

/-- The chord of a name. -/
def chordOf (settings : Settings) (first name : ChordName) : Chord :=
  let chord := name.voiced settings.crossover
  if settings.minimize then chord.nearestTo (first.voiced settings.crossover) else chord

/-- The chord and the length of a token. -/
def stamp (settings : Settings) (first : ChordName) (token : ResolvedToken) : Except Error Stamp :=
  match Beats.ticks? token.beats.value settings.ticksPerBeat with
  | none => .error (.malformed (.chordLengthTooLarge token.beats.text))
  | some n =>
    if h : 0 < n then
      .ok ⟨token.startsSection, chordOf settings first token.name, n.toNat,
        Integer.toNat_pos h⟩
    else .error (.malformed (.chordLengthNotPositive token.beats.text))

/-- The stamps of as many tokens as start within a number of ticks. -/
def stampsWithin (settings : Settings) (first : ChordName) :
    (ticks : Nat) → List ResolvedToken → Except Error (List Stamp)
  | _, [] => .ok []
  | 0, _ => .ok []
  | ticks + 1, token :: rest => do
    let s ← stamp settings first token
    let stamps ← stampsWithin settings first (ticks + 1 - s.ticks) rest
    .ok (s :: stamps)

/-- The stamps of a pattern, of which the first one always starts a section. -/
def stamps (settings : Settings) (ticks : Nat) :
    List ResolvedToken → Except Error (List Stamp)
  | [] => .ok []
  | token :: rest =>
    stampsWithin settings token.name ticks ({ token with startsSection := true } :: rest)

/-- Puts an occurrence in front of sections: the ticks before the first section mark, and the
lengths of the sections from there on. -/
def prependSection (o : Occurrence Stamp) : Nat × List Nat → Nat × List Nat
  | (unmarked, sections) =>
    if o.item.startsSection then (0, (o.ticks + unmarked) :: sections)
    else (o.ticks + unmarked, sections)

/-- The lengths of the sections. -/
def sectionLengths (occurrences : List (Occurrence Stamp)) : List Nat :=
  (occurrences.foldr prependSection (0, [])).2

/-- The joined runs of the chords. -/
def chordRuns (occurrences : List (Occurrence Stamp)) : List Run :=
  Run.merge (occurrences.map fun o => ⟨o.item.chord, o.ticks⟩)

/-- The timeline of a resolved pattern, checked for consistency. -/
def timeline (settings : Settings) (ticks : Nat) (tokens : List ResolvedToken) :
    Except Error Timeline := do
  let items ← stamps settings ticks tokens
  let occurrences := Cycle.lay Stamp.ticks items ticks
  let runs := chordRuns occurrences
  let t ← Timeline.ofColumns (runs.flatMap Run.chords) (runs.flatMap fun r => countdown r.ticks)
    ((sectionLengths occurrences).flatMap countdown)
  t.check
  .ok t

end Stamping

end Songsmith
