import Songsmith.Chord.Basic
import Songsmith.Text.Blank

/-!
# Chord names

A chord is named by a note letter, an optional accidental and an optional `m` for minor. A note has
two names where an accidental can be put on either neighbour, and is written with the sharp one. A
`ChordName` is a text that names a chord, with blanks allowed around it; which octave the chord has
is decided by a crossover when it is voiced: the pitch classes above the crossover are one octave
down.
-/

namespace Songsmith

namespace Chord

/-- The crossover that holds where none is given: C, C sharp and D stay up. -/
def defaultCrossover : Int := 2

/-- The pitch class of a note letter. -/
def letterClass? : Char → Option Int
  | 'C' => some 0
  | 'D' => some 2
  | 'E' => some 4
  | 'F' => some 5
  | 'G' => some 7
  | 'A' => some 9
  | 'B' => some 11
  | _ => none

/-- The pitch class of a letter raised by a semitone. Letters with a neighbour that near have no
sharp. -/
def sharpClass? (letter : Char) : Option Int :=
  if letter = 'E' ∨ letter = 'B' then none else (letterClass? letter).map (· + 1)

/-- The pitch class of a letter lowered by a semitone. -/
def flatClass? (letter : Char) : Option Int :=
  if letter = 'C' ∨ letter = 'F' then none else (letterClass? letter).map (· - 1)

/-- The quality that stands behind the note. -/
def suffixQuality? : Text → Option Quality
  | [] => some .major
  | ['m'] => some .minor
  | _ => none

/-- The root pitch class and the quality that a name without blanks around it says. -/
def nameParts? : Text → Option (Int × Quality)
  | letter :: '#' :: rest => do some (← sharpClass? letter, ← suffixQuality? rest)
  | letter :: 'b' :: rest => do some (← flatClass? letter, ← suffixQuality? rest)
  | letter :: rest => do some (← letterClass? letter, ← suffixQuality? rest)
  | [] => none

/-- The names of the pitch classes. -/
def noteNames : List String :=
  ["C", "C#", "D", "D#", "E", "F", "F#", "G", "G#", "A", "A#", "B"]

/-- The name of the note in a pitch class, in any octave. -/
def noteName (rootClass : Int) : Text := (noteNames.getD (rootClass % 12).toNat "").toList

/-- The name of a chord. -/
def name (c : Chord) : Text :=
  noteName c.rootClass ++ if c.quality = .minor then ['m'] else []

end Chord

/-- A text that names a chord. -/
structure ChordName where
  text : Text
  valid : (Chord.nameParts? (Text.trim text)).isSome
deriving DecidableEq

namespace ChordName

/-- Reads a chord name. -/
def read (text : Text) : Except Error ChordName :=
  if valid : (Chord.nameParts? (Text.trim text)).isSome then .ok ⟨text, valid⟩
  else .error (.malformed (.chordName text))

/-- The root pitch class and the quality of the named chord. -/
def parts (n : ChordName) : Int × Quality := (Chord.nameParts? (Text.trim n.text)).get n.valid

/-- The named chord, one octave down if its root is above the crossover. -/
def voiced (n : ChordName) (crossover : Int) : Chord :=
  ⟨n.parts.1, n.parts.2, if crossover < n.parts.1 then -1 else 0, Text.trim n.text⟩

/-- Both names mean the same root pitch class and quality. -/
def sameHarmony (n m : ChordName) : Bool := n.parts == m.parts

end ChordName

/-- The chord of a name. -/
def Chord.ofName (text : Text) (crossover : Int := Chord.defaultCrossover) : Except Error Chord :=
  (ChordName.read text).map (·.voiced crossover)

end Songsmith
