import Songsmith.Midi.Event
import Songsmith.Number.Real

/-!
# MIDI messages

A track is a list of messages, each with the time since the one before. The time of a message is
the difference of two positions that are rounded one by one (`Position.ofTick`), so that roundings
do not add up. Messages are made by a library, which may refuse one (`MessageLibrary`); nothing here
depends on what it refuses.
-/

namespace Songsmith

/-- The ticks of a beat in a file. -/
def fileTicksPerBeat : Int := 480

/-- A message of a track. -/
inductive Message where
  | trackName (name : Text)
  /-- The length of a beat in microseconds. -/
  | setTempo (tempo : Int)
  | note (time : Int) (change : NoteChange) (channel note velocity : Int)
  | endOfTrack
deriving Repr, DecidableEq

/-- The library that makes the messages. -/
class MessageLibrary where
  /-- Why a message is refused, if it is. -/
  refusal? : Message → Option String

namespace Position

/-- The ticks of the file in one tick of the song. -/
def scale (ticksPerBeat : Nat) : Except Error Rat :=
  match Binary64.quotient? fileTicksPerBeat ticksPerBeat with
  | some scale => .ok scale
  | none => .error (.overflow .quotient)

/-- The position in the file of a tick of the song. -/
def ofTick (scale : Rat) (tick : Int) : Except Error Int :=
  match Binary64.nearest? tick with
  | none => .error (.overflow .integer)
  | some tick =>
    match Binary64.mul? tick scale with
    | some position => .ok (roundHalfEven position)
    | none => .error (.overflow .infinity)

end Position

namespace Message

section
variable [MessageLibrary]

/-- The message, unless the library refuses it. -/
def make (m : Message) : Except Error Message :=
  match MessageLibrary.refusal? m with
  | some reason => .error (.invalid (.refused reason))
  | none => .ok m

/-- The message of an event, `time` after the one before. -/
def ofEvent (channel : Int) (time : Int) (e : NoteEvent) : Except Error Message :=
  make (.note time e.change channel e.note e.velocity)

/-- The messages of events, the one before them having been at the position `last`. -/
def ofEvents (scale : Rat) (channel : Int) :
    (last : Int) → (done : List Message) → List NoteEvent → Except Error (List Message)
  | _, done, [] => .ok done.reverse
  | last, done, e :: rest => do
    let position ← Position.ofTick scale e.tick
    let message ← ofEvent channel (position - last) e
    ofEvents scale channel position (message :: done) rest

/-- A track: its name, the messages at its start, its events and its end. -/
def track (name : Text) (leading : List Message) (scale : Rat) (channel : Int)
    (events : List NoteEvent) : Except Error (List Message) :=
  (ofEvents scale channel 0 [] events).map fun messages =>
    .trackName name :: leading ++ messages ++ [.endOfTrack]

/-- The tempo of a number of beats per minute, which has to be given. -/
def tempo (bpm : Option Number) : Except Error Message := do
  let bpm ← (bpm.elim (.error (.missingValue .tempo)) .ok : Except Error Number)
  let bpm ← bpm.toFloat
  if bpm == 0.0 then .error (.divisionByZero true)
  else
    let tempo ← roundFloat (60000000.0 / bpm * 4.0 / 4.0)
    make (.setTempo tempo)

end

end Message

end Songsmith
