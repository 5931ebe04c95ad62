import Songsmith.Midi.Message

/-!
# MIDI files

The bytes of a file with several simultaneous tracks: a header chunk, and one chunk for every track.
Times are written with seven bits in a byte. The status byte of a note is left out when it is that
of the message before; messages about the track itself interrupt such a row. Names have one byte for
each character.
-/

namespace Songsmith.Midi

/-- The bytes of a file. -/
abbrev Bytes := List UInt8

/-- The lowest `width` bytes of a number, the most significant first. -/
def bigEndian : (width : Nat) → Nat → Bytes
  | 0, _ => []
  | width + 1, n => bigEndian width (n / 256) ++ [n.toUInt8]

/-- The groups of seven bits of a number, in front of `tail`; all are marked as having a
successor. -/
def leadingGroups (n : Nat) (tail : Bytes) : Bytes :=
  if n = 0 then tail else leadingGroups (n / 128) ((n % 128 + 128).toUInt8 :: tail)
termination_by n

/-- A number in groups of seven bits, all but the last one marked. -/
def variableLength (n : Nat) : Bytes := leadingGroups (n / 128) [(n % 128).toUInt8]

/-- The first run of characters that have no code of one byte: one of them, its first and its last
position. -/
def unencodable? (name : Text) : Option (Char × Nat × Nat) :=
  let wide (c : Char) : Bool := 256 ≤ c.toNat
  let first := (name.takeWhile (!wide ·)).length
  match name.drop first with
  | [] => none
  | c :: rest => some (c, first, first + (rest.takeWhile wide).length)

/-- The bytes of a name. -/
def nameBytes (name : Text) : Except Error Bytes :=
  match unencodable? name with
  | some (c, first, last) => .error (.unencodable c first last)
  | none => .ok (name.map fun c => c.toNat.toUInt8)

/-- A message about the track: its mark, its kind, and its data with their length. -/
def metaBytes (kind : UInt8) (data : Bytes) : Bytes :=
  0 :: 0xff :: kind :: variableLength data.length ++ data

/-- The status byte of a note. -/
def statusByte (change : NoteChange) (channel : Nat) : UInt8 :=
  match change with
  | .on => (0x90 + channel).toUInt8
  | .off => (0x80 + channel).toUInt8

/-- The bytes of a message, and the status byte that the next one may leave out; `running` is that
of the message before. -/
def messageBytes (running : Option UInt8) : Message → Except Error (Bytes × Option UInt8)
  | .trackName name => (nameBytes name).map fun bytes => (metaBytes 3 bytes, none)
  | .setTempo tempo => .ok (metaBytes 0x51 (bigEndian 3 tempo.toNat), none)
  | .endOfTrack => .ok (metaBytes 0x2f [], none)
  | .note time change channel note velocity =>
    let status := statusByte change channel.toNat
    .ok (variableLength time.toNat ++ (if running = some status then [] else [status]) ++
      [note.toNat.toUInt8, velocity.toNat.toUInt8], some status)

/-- The bytes of messages in order; `done` holds those written so far, the last message first. -/
def messagesBytes : (running : Option UInt8) → (done : List Bytes) → List Message →
    Except Error Bytes
  | _, done, [] => .ok done.reverse.flatten
  | running, done, m :: rest => do
    let (bytes, running) ← messageBytes running m
    messagesBytes running (bytes :: done) rest

/-- A chunk: its name, its length and its data. -/
def chunk (name : String) (data : Bytes) : Bytes :=
  name.toList.map (·.toNat.toUInt8) ++ bigEndian 4 data.length ++ data

/-- The header of a file with a number of simultaneous tracks. -/
def header (tracks : Nat) : Bytes :=
  chunk "MThd" (bigEndian 2 1 ++ bigEndian 2 tracks ++ bigEndian 2 fileTicksPerBeat.toNat)

/-- The bytes of a file as far as they can be written, and the error that stops the writing. -/
structure Written where
  bytes : Bytes
  error : Option Error

/-- Writes tracks behind the bytes that are there, and stops at a track that cannot be written. -/
def writeTracks (bytes : Bytes) : List (List Message) → Written
  | [] => ⟨bytes, none⟩
  | messages :: rest =>
    match messagesBytes none [] messages with
    | .error e => ⟨bytes, some e⟩
    | .ok data => writeTracks (bytes ++ chunk "MTrk" data) rest

/-- Writes a file. -/
def write (tracks : List (List Message)) : Written := writeTracks (header tracks.length) tracks

end Songsmith.Midi
