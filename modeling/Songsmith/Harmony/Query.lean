import Songsmith.Harmony.Timeline
import Songsmith.Number.Integer

/-!
# Queries on timelines

The runs of chords and the sections are found by walking: from tick zero, each counter says how far
the next run or section is. On a consistent timeline (`Timeline.flaw? = none`) the walk meets every
run or section once; on any other it goes where the counters send it, a negative position counting
back from the end, and stops when it has taken more steps than there are positions.
-/

namespace Songsmith

/-- A maximal stretch of one chord. -/
structure ChordRun where
  tick : Int
  chord : Option Chord
  length : Int
deriving DecidableEq

namespace Timeline

/-- The slot at a position, a negative one counted from the end. -/
def slotAround? (t : Timeline) (position : Int) : Option Slot :=
  t.slot? (if position < 0 then position + t.ticks else position)

/-- Walks from a position as far as `limit`, by the steps that `step` reads off the slots;
`visited` holds the slots met so far, the last one first. -/
def walkWithin (t : Timeline) (step : Slot → Int) (limit : Int) :
    (fuel : Nat) → (position : Int) → (visited : List (Int × Slot)) →
      Except Error (List (Int × Slot))
  | 0, _, _ => .error (.astray .endless)
  | fuel + 1, position, visited =>
    if position < limit then
      match t.slotAround? position with
      | some s => walkWithin t step limit fuel (position + step s) ((position, s) :: visited)
      | none => .error (.astray .outside)
    else .ok visited.reverse

/-- Walks from a position as far as `limit`. There are two positions for every tick, one from the
front and one from the end, so that a walk of more steps comes to one of them a second time. -/
def walk (t : Timeline) (step : Slot → Int) (limit start : Int) :
    Except Error (List (Int × Slot)) :=
  t.walkWithin step limit (2 * t.ticks + 1) start []

/-- The runs of chords, in order. -/
def runs (t : Timeline) : Except Error (List ChordRun) :=
  (t.walk Slot.chordTicks t.ticks 0).map fun visited =>
    visited.map fun (tick, s) => ⟨tick, s.chord, s.chordTicks⟩

/-- A chord and its length. -/
def runText (chord : Option Chord) (length : Int) : Text :=
  nameOf chord ++ '/' :: Integer.digits length

/-- All runs as a chord pattern, with lengths in ticks. -/
def dump (t : Timeline) : Except Error Text :=
  t.runs.map fun runs => Text.commaJoin (runs.map fun r => runText r.chord r.length)

/-- The first tick of every section. -/
def sectionStarts (t : Timeline) : Except Error (List Int) :=
  (t.walk Slot.sectionTicks t.ticks 0).map fun visited => visited.map (·.1)

/-- The number of sections. -/
def sectionCount (t : Timeline) : Except Error Nat := t.sectionStarts.map List.length

/-- The chords from a tick of the song to the end of its section, as a chord pattern. A chord that
runs past the end of the section is cut there. -/
def sectionText? (t : Timeline) (tick : Int) : Except Error (Option Text) :=
  match t.slot? tick with
  | none => .ok none
  | some first =>
    let stop := tick + first.sectionTicks
    (t.walk Slot.chordTicks stop tick).map fun visited =>
      some (Text.commaJoin (visited.map fun (position, s) =>
        runText s.chord (min (stop - position) s.chordTicks)))

/-- The number of the section that a tick is in, or `-1` outside the song. -/
def sectionNumber (t : Timeline) (tick : Int) : Except Error Int :=
  if (t.slot? tick).isNone then .ok (-1)
  else t.sectionStarts.map fun starts => ((starts.drop 1).takeWhile (· ≤ tick)).length

/-- The first tick of a section, or `-1` if there is none of that number. -/
def sectionTick (t : Timeline) (number : Int) : Except Error Int :=
  t.sectionStarts.map fun starts =>
    if 0 ≤ number then (starts[number.toNat]?).getD (-1) else -1

/-- How many sections differ in length or chords. -/
def distinctSectionCount (t : Timeline) : Except Error Nat := do
  let starts ← t.sectionStarts
  let texts ← starts.mapM t.sectionText?
  return texts.eraseDups.length

end Timeline

end Songsmith
