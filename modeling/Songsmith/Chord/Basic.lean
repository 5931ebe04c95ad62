import Songsmith.Error

/-!
# Chords

A chord is a root pitch class, a quality and an octave. The octave only says how the chord is
voiced, so there are two equalities: `Chord.same` compares all three, and `Chord.sameHarmony` leaves
the octave out. The text that a chord was read from takes part in neither.
-/

namespace Songsmith

/-- The quality of a chord: one of the two that can be sounded, or any other name. -/
inductive Quality where
  | major
  | minor
  | other (name : Text)
deriving Repr, DecidableEq

namespace Quality

/-- The quality of a name. -/
def ofName (name : Text) : Quality :=
  if name = "major".toList then major else if name = "minor".toList then minor else other name

/-- The name of a quality. -/
def name : Quality → Text
  | major => "major".toList
  | minor => "minor".toList
  | other name => name

/-- The semitones of the triad above its root, for the qualities that have one. -/
def intervals : Quality → Except Error (List Int)
  | major => .ok [0, 4, 7]
  | minor => .ok [0, 3, 7]
  | other name => .error (.invalid (.chordQuality name))

end Quality

/-- A chord, voiced in an octave. -/
structure Chord where
  /-- The pitch class of the root: 0 is C. Any integer is allowed. -/
  rootClass : Int
  quality : Quality
  octave : Int := 0
  /-- The name that the chord was read from. -/
  text : Text := []
deriving Repr, DecidableEq

namespace Chord

/-- The pitch of the root, in semitones above the base pitch of a track. -/
def rootPitch (c : Chord) : Int := c.rootClass + 12 * c.octave

/-- The pitches of the triad in root position, over a base pitch. -/
def pitches (c : Chord) (base : Int) : Except Error (List Int) :=
  c.quality.intervals.map fun intervals => intervals.map (base + c.rootPitch + ·)

/-- Equal root pitch class and quality, whatever the octave. -/
def sameHarmony (c d : Chord) : Bool := c.rootClass == d.rootClass && c.quality == d.quality

/-- Equal root pitch class, quality and octave, whatever the text. -/
def same (c d : Chord) : Bool := c.sameHarmony d && c.octave == d.octave

/-- The distance of the roots in semitones. -/
def distance (c reference : Chord) : Nat := (c.rootPitch - reference.rootPitch).natAbs

end Chord

end Songsmith
