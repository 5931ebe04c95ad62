import Songsmith.Midi.File
import Songsmith.Song.Arguments
import Songsmith.Song.Build
import Songsmith.Song.Folder

/-!
# The command line

Rendering a song document to a MIDI file, up to the reading and the writing of files: `perform`
turns the options and the document into a file and the log. `RunOutcome.run` is a whole run in a
`Folder`. What the machine has room for and what the library for messages refuses is given.
-/

namespace Songsmith

/-- How a run of the program ends. -/
inductive Ending where
  /-- The program ends with an exit code. -/
  | exit (code : Nat)
  /-- An error goes past the program. -/
  | failure (e : Error)
deriving Repr, DecidableEq

namespace CommandLine

/-- The errors of the input, which the program reports itself when it makes a song. -/
def isReported : Error → Bool
  | .malformed _ | .dangling _ | .unsatisfied _ | .invalid _ | .unencodable .. => true
  | _ => false

/-- The document that is rendered: one that holds nothing counts as an empty mapping. -/
def songDocument (document : Option Document) : Document :=
  match document with
  | some d => if d.isEmpty then .mapping [] else d
  | none => .mapping []

/-- What a run has come to before the file is written. -/
inductive Prepared where
  | ended (ending : Ending)
  | file (written : Midi.Written)

section
variable [Machine] [MessageLibrary]

/-- Renders a document that has been read, `notices` being what is reported so far. -/
def performRead (o : Options) (notices : List Notice) (document : Option Document) :
    List Notice × Prepared :=
  let song := Song.build (songDocument document) o.seed
  let notices := notices ++ song.notices
  match song.result with
  | .error e =>
    if isReported e then (notices ++ [.failed o.seed e.message], .ended (.exit 1))
    else (notices, .ended (.failure e))
  | .ok s =>
    let tracks := score { bpm := o.bpm } s.frame s.harmony s.tracks
    let notices := notices ++ tracks.notices
    match tracks.result with
    | .error e => (notices, .ended (.failure e))
    | .ok tracks =>
      (notices ++ [.writing tracks.length o.output], .file (Midi.write tracks))

/-- Renders what was found at the path in the options: a document, nothing, or something that is not
to be read. -/
def perform (o : Options) (found : Except Error (Option Document)) : List Notice × Prepared :=
  match found with
  | .error e => ([.loading o.config], .ended (.failure e))
  | .ok none => performRead o [.loading o.config, .configMissing o.config] none
  | .ok (some d) => performRead o [.loading o.config] (some d)

end

/-- The notices that are shown: debugging ones only if so asked. -/
def shown (verbose : Bool) (notices : List Notice) : List Notice :=
  notices.filter fun n => verbose || n.level != .debug

/-- The log: every notice that is shown, on a line of its own. -/
def log (verbose : Bool) (notices : List Notice) : String :=
  String.join ((shown verbose notices).map fun n => n.line ++ "\n")

end CommandLine

/-- What a run of the program leaves behind. -/
structure RunOutcome where
  ending : Ending
  /-- The new files in the folder. -/
  files : List (Text × Midi.Bytes)
  /-- The log, unless the arguments were not understood. -/
  log : Option String

namespace RunOutcome

/-- Nothing was written and nothing reported. -/
def silent (ending : Ending) : RunOutcome := ⟨ending, [], some ""⟩

/-- Writes a file at a path, which has to be given. A file that cannot be written to its end is left
as it is then. -/
def ofWritten (folder : Folder) (path : Option Text) (log : String) (written : Midi.Written) :
    RunOutcome :=
  match path.elim (.error (.missingValue .output)) folder.destination with
  | .error e => ⟨.failure e, [], some log⟩
  | .ok name =>
    ⟨written.error.elim (.exit 0) .failure, name.toList.map (·, written.bytes), some log⟩

/-- Runs the program in a folder. -/
def run [Machine] [MessageLibrary] (folder : Folder) (arguments : List Text) : RunOutcome :=
  match Request.ofArguments arguments with
  | .usage => ⟨.exit 2, [], none⟩
  | .help => silent (.exit 0)
  | .render o =>
    let (notices, prepared) := CommandLine.perform o (folder.read o.config)
    let log := CommandLine.log o.verbose notices
    match prepared with
    | .ended ending => ⟨ending, [], some log⟩
    | .file written => ofWritten folder o.output log written

end RunOutcome

end Songsmith
