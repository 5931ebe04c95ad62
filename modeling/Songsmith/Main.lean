import Songsmith.Document.Reader
import Songsmith.Song.CommandLine

/-!
# The program

Reads the song document, writes the MIDI file and shows the log. What is made of the arguments and
the document is decided by `Songsmith.CommandLine`.
-/

namespace Songsmith.Main

/-- What the program takes the machine to have room for: as many groups inside each other as fit on
a stack that is hardly used, and lists of half a gigabyte. -/
@[reducible] def machine : Machine := ⟨989, 0x4000000, by decide⟩

/-- The ranges that the library for messages checks, the channel first. -/
@[reducible] def library : MessageLibrary where
  refusal?
    | .note _ _ channel note velocity =>
      if channel < 0 ∨ 15 < channel then some "channel must be in range 0..15"
      else if note < 0 ∨ 127 < note ∨ velocity < 0 ∨ 127 < velocity then
        some "data byte must be in range 0..127"
      else none
    | .setTempo tempo =>
      if tempo < 0 ∨ 16777215 < tempo then some "attribute must be in range 0..16777215" else none
    | _ => none

/-- How the program is called. -/
def usageText : String :=
  "usage: songsmith [-h] [--seed SEED] [--output OUTPUT] [--bpm BPM] [--verbose] config"

/-- The document at a path, if there is a file. One that is not readable holds nothing. -/
def loadDocument (path : Text) : IO (Except Error (Option Document)) := do
  try
    let text ← IO.FS.readFile (String.ofList path)
    return .ok (some ((Document.read? text.toList).getD .null))
  catch
    | .noFileOrDirectory .. => return .ok none
    | _ => return .error (.inaccessible .folder path)

/-- Ends a run that an error has gone past. -/
def fail (e : Error) : IO UInt32 := do
  IO.eprintln e.message
  return 1

/-- Writes a file as far as it can be written. -/
def save (path : Text) (written : Midi.Written) : IO UInt32 := do
  try
    IO.FS.writeBinFile (String.ofList path) ⟨written.bytes.toArray⟩
    match written.error with
    | some e => fail e
    | none => return 0
  catch
    | .noFileOrDirectory .. => fail (.inaccessible .missing path)
    | _ => fail (.inaccessible .folder path)

end Songsmith.Main

open Songsmith Songsmith.Main in
/-- Renders the song that the arguments name. -/
def main (arguments : List String) : IO UInt32 := do
  let _ := machine
  let _ := library
  match Request.ofArguments (arguments.map String.toList) with
  | .usage =>
    IO.eprintln usageText
    return 2
  | .help =>
    IO.println usageText
    return 0
  | .render o =>
    let document ← loadDocument o.config
    let (notices, prepared) := CommandLine.perform o document
    IO.eprint (CommandLine.log o.verbose notices)
    match prepared with
    | .ended (.exit code) => return code.toUInt32
    | .ended (.failure e) => fail e
    | .file written =>
      match o.output with
      | some path => save path written
      | none => fail (.missingValue .output)
