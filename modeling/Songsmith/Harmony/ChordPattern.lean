import Songsmith.Number.Decimal
import Songsmith.Text.Blank

/-!
# Chord patterns

A chord pattern is a list of tokens `[+]<chord>/<beats>` between commas. It may settle for itself
whether chords are voiced near the first one, and the crossover, instead of leaving both to the
engine. Here a token is only cut into its parts; what its reference means is decided when the
pattern is resolved.
-/

namespace Songsmith

/-- A chord pattern text, which is not blank, and the settings that it overrides. -/
structure ChordPattern where
  text : Text
  minimize : Option Bool
  crossover : Option Int
  nonblank : Text.isBlank text = false

/-- The chord pattern of a text that is not blank. -/
def ChordPattern.make (text : Text) (minimize : Option Bool := none)
    (crossover : Option Int := none) : Except Error ChordPattern :=
  match h : Text.isBlank text with
  | true => .error (.malformed .blankChordPattern)
  | false => .ok ⟨text, minimize, crossover, h⟩

/-- The length of a chord in beats: the written number, and the binary number nearest to it. -/
structure BeatLength where
  text : Text
  value : Rat
deriving DecidableEq

/-- A token of a chord pattern, cut into its parts. -/
structure ChordToken where
  /-- The token starts a new chord section. -/
  startsSection : Bool
  /-- The chord name, table reference or backreference. -/
  reference : Text
  beats : BeatLength
deriving DecidableEq

namespace ChordToken

/-- The section mark at the start of a token, and what follows it. -/
def spanMark : Text → Bool × Text
  | '+' :: rest => (true, rest)
  | text => (false, text)

/-- Reads a token, with blanks allowed around it. -/
def read (token : Text) : Except Error ChordToken :=
  let (startsSection, body) := spanMark (Text.trim token)
  match body.splitOn '/' with
  | [c :: reference, d :: beats] =>
    match RealText.readFinite? (d :: beats) with
    | some value => .ok ⟨startsSection, c :: reference, d :: beats, value⟩
    | none => .error (.malformed (.chordTokenLength (Text.trim token)))
  | _ => .error (.malformed (.chordToken (Text.trim token)))

end ChordToken

/-- The tokens of a chord pattern. -/
def ChordPattern.tokens (p : ChordPattern) : Except Error (List ChordToken) :=
  (p.text.splitOn ',').mapM ChordToken.read

end Songsmith
