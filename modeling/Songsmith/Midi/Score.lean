import Songsmith.Midi.Message
import Songsmith.Structure

/-!
# Scores

A score is the list of tracks that a file holds: one with the tempo and the chords, and one for
every track of the song. Velocities of patterns are relative to the greatest velocity of the song
and are scaled to the range of a file, where a note that is struck has at least the velocity one.
-/

namespace Songsmith

/-- A rendered track of a song. -/
structure Track where
  name : Text
  channel : Nat
  pattern : Pattern
  /-- The note number of the pitch zero. -/
  basePitch : Int
  /-- The pitches of the wildcards. -/
  wildcards : List (Text × Int)
  /-- Notes are moved by the root of the chord that sounds. -/
  followChords : Bool
  channel_le : channel ≤ 15

namespace Track

/-- The base pitch where none is given: middle C. -/
def defaultBasePitch : Int := 60

/-- A track of given parts, whose channel has to exist. -/
def make (name : Text) (channel : Int) (pattern : Pattern) (basePitch : Int)
    (wildcards : List (Text × Int)) (followChords : Bool) : Except Error Track :=
  if h : 0 ≤ channel ∧ channel ≤ 15 then
    .ok ⟨name, channel.toNat, pattern, basePitch, wildcards, followChords, by omega⟩
  else Integer.write channel >>= fun channel => .error (.invalid (.trackChannel channel))

/-- The velocity in the file of a velocity of the song. -/
def fileVelocity (maxVelocity : Nat) (velocity : Int) : Except Error Int :=
  match Binary64.quotient? (velocity * 127) maxVelocity with
  | some x => .ok (max 1 (min 127 (roundHalfEven x)))
  | none => .error (.overflow .quotient)

/-- An event with its velocity scaled for the file. Releases have none. -/
def scaleEvent (maxVelocity : Nat) (e : NoteEvent) : Except Error NoteEvent :=
  match e.change with
  | .on => (fileVelocity maxVelocity e.velocity).map fun velocity => { e with velocity := velocity }
  | .off => .ok e

/-- The messages of a track. -/
def messages [MessageLibrary] (song : Structure) (harmony : Timeline) (scale : Rat) (t : Track) :
    Traced (List Message) := do
  let placement := ⟨t.basePitch, if t.followChords then some harmony else none⟩
  let events ← patternEvents t.pattern song.ticks placement t.wildcards
  let events ← Traced.ofExcept (events.mapM (scaleEvent song.maxVelocity))
  Traced.ofExcept (Message.track t.name [] scale t.channel events)

end Track

/-- What a score is made from, besides the harmony and the tracks. -/
structure ScoreSettings where
  bpm : Option Number := some (.integer 120)
  chordChannel : Int := 0
  chordBasePitch : Int := Track.defaultBasePitch

/-- The messages of the chord track. -/
def chordTrack [MessageLibrary] (settings : ScoreSettings) (harmony : Timeline) (scale : Rat) :
    Except Error (List Message) := do
  let events ← chordEvents harmony settings.chordBasePitch ChordEvents.defaultVelocity
  let tempo ← Message.tempo settings.bpm
  Message.track "chords".toList [tempo] scale settings.chordChannel events

/-- The tracks of a song as messages. -/
def score [MessageLibrary] (settings : ScoreSettings) (song : Structure) (harmony : Timeline)
    (tracks : List Track) : Traced (List (List Message)) := do
  let scale ← Traced.ofExcept (Position.scale song.ticksPerBeat)
  let chords ← Traced.ofExcept (chordTrack settings harmony scale)
  let others ← tracks.mapM (Track.messages song harmony scale)
  return chords :: others

end Songsmith
