import Songsmith.Chord.Name

/-!
# Timelines

The harmony of a song, tick by tick: the chord, how many ticks it still lasts and how many ticks its
section still lasts, both counted down to one. A timeline may also be put together from any three
columns of equal length; `Timeline.flaw?` finds the first place at which they contradict each other.
-/

namespace Songsmith

/-- One tick of a timeline. -/
structure Slot where
  chord : Option Chord
  chordTicks : Int
  sectionTicks : Int
deriving DecidableEq

/-- The ticks of a song. -/
structure Timeline where
  slots : Array Slot
deriving DecidableEq

namespace Timeline

/-- The timeline of three columns, which have to be equally long. -/
def ofColumns (chords : List (Option Chord)) (chordTicks sectionTicks : List Int) :
    Except Error Timeline :=
  if chords.length = chordTicks.length ∧ chordTicks.length = sectionTicks.length then
    .ok ⟨((chords.zip (chordTicks.zip sectionTicks)).map
      fun (chord, chordLeft, sectionLeft) => Slot.mk chord chordLeft sectionLeft).toArray⟩
  else .error (.invalid .columnLengths)

/-- The length of the song. -/
def ticks (t : Timeline) : Nat := t.slots.size

/-- The slot at a tick of the song. -/
def slot? (t : Timeline) (tick : Int) : Option Slot :=
  if 0 ≤ tick then t.slots[tick.toNat]? else none

/-- The chord at a tick of the song. -/
def chord? (t : Timeline) (tick : Int) : Option Chord := (t.slot? tick).bind Slot.chord

/-- How many ticks the chord at a tick still lasts; none outside the song. -/
def chordTicks (t : Timeline) (tick : Int) : Int := ((t.slot? tick).map Slot.chordTicks).getD 0

/-- How many ticks the section at a tick still lasts; none outside the song. -/
def sectionTicks (t : Timeline) (tick : Int) : Int :=
  ((t.slot? tick).map Slot.sectionTicks).getD 0

/-! ## Consistency -/

/-- The name of a chord, also of a missing one. -/
def nameOf : Option Chord → Text
  | some c => c.name
  | none => "None".toList

/-- Both chords are missing, or they are equal, octave included. -/
def sameChord : Option Chord → Option Chord → Bool
  | some c, some d => c.same d
  | none, none => true
  | _, _ => false

/-- What the check remembers of the tick before. -/
structure Last where
  chord : Option Chord
  chordTicks : Int
  sectionTicks : Int

/-- The flaw of one slot after the slot before. -/
def slotFlaw? (last : Last) (tick : Nat) (s : Slot) : Option Flaw :=
  if s.chord = none then some (.noChord tick)
  else if s.chordTicks ≤ 0 then some (.chordTicksNotPositive tick)
  else if 1 < last.chordTicks ∧ s.chordTicks ≠ last.chordTicks - 1 then
    some (.chordTicksNotDecremented tick)
  else if s.sectionTicks ≤ 0 then some (.sectionTicksNotPositive tick)
  else if 1 < last.sectionTicks ∧ s.sectionTicks ≠ last.sectionTicks - 1 then
    some (.sectionTicksNotDecremented tick)
  else if !sameChord s.chord last.chord ∧ last.chordTicks ≠ 1 then
    some (.chordChanged (nameOf last.chord) (nameOf s.chord) tick)
  else if sameChord s.chord last.chord ∧ last.chordTicks = 1 then some (.chordNotChanged tick)
  else none

/-- The first flaw of the slots from a tick on. -/
def flawFrom? : Last → (tick : Nat) → List Slot → Option Flaw
  | last, _, [] =>
    if last.chordTicks ≠ 1 then some .chordOpenAtEnd
    else if last.sectionTicks ≠ 1 then some .sectionOpenAtEnd
    else none
  | last, tick, s :: rest =>
    match slotFlaw? last tick s with
    | some flaw => some flaw
    | none => flawFrom? ⟨s.chord, s.chordTicks, s.sectionTicks⟩ (tick + 1) rest

/-- The first place at which the columns contradict each other: a counter that is not positive or
does not count down by one, or a chord that changes anywhere but at the end of its run. -/
def flaw? (t : Timeline) : Option Flaw := flawFrom? ⟨none, 1, 1⟩ 0 t.slots.toList

/-- Fails at the first flaw. -/
def check (t : Timeline) : Except Error Unit :=
  match t.flaw? with
  | some flaw => .error (.unsatisfied (.timeline flaw))
  | none => .ok ()

end Timeline

end Songsmith
