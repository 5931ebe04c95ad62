import Songsmith.Error

/-!
# Notices

What is reported while a song is made. A notice is a fact with a level, the part of the program
that reports it and a wording. A computation that reports is a `Traced` value: the notices in order,
and a result or an error; what was reported before an error is kept. `Traced.bind` runs one after
the other, so that the result of a sequence is the sequence of the results (`Traced.result_bind`).
-/

namespace Songsmith

/-- How important a notice is. -/
inductive Level where
  | debug
  | info
  | warning
  | error
deriving Repr, DecidableEq

/-- A fact that is reported. -/
inductive Notice where
  | noChordPatterns
  | chordPattern (text : Text)
  /-- A pass over a chord pattern was discarded and is begun again. -/
  | drawsExhausted (pattern : Text)
  | resolvedPattern (text : Text)
  | sectionCount (count : Nat)
  | chords (dump : Text)
  | patternText (text : Text)
  | part (token : Text) (text : Text)
  | repetitions (count : Text)
  | shapedPattern (text : Text)
  | noteSkipped (note : Text) (tick : Nat)
  | writing (tracks : Nat) (path : Option Text)
  | loading (path : Text)
  | configMissing (path : Text)
  | rendered (ticks sections : Nat)
  | track (name pattern : Text)
  | failed (seed : Option Int) (cause : String)
deriving Repr, DecidableEq

namespace Notice

/-- How important a notice is: a failure, something that the program gets over by itself, a step of
the whole song, or a detail. -/
def level : Notice → Level
  | noChordPatterns | failed .. => .error
  | drawsExhausted .. | configMissing .. => .warning
  | writing .. | loading .. | rendered .. => .info
  | _ => .debug

/-- The part of the program that reports. -/
def reporter : Notice → String
  | noChordPatterns | chordPattern .. | drawsExhausted .. | resolvedPattern .. | sectionCount ..
  | chords .. => "chordhelix.harmony"
  | patternText .. => "chordhelix.pattern_engines"
  | part .. => "chordhelix.pattern_engines.random_fragment"
  | repetitions .. | shapedPattern .. => "chordhelix.pattern_engines.crescendo"
  | noteSkipped .. | writing .. => "chordhelix.midi_export"
  | loading .. | configMissing .. | rendered .. | track .. | failed .. => "chordhelix.__main__"

/-- What is shown in the place of a setting without a value. -/
def missing : String := "[]"

/-- The wording of a notice. -/
def message : Notice → String
  | noChordPatterns => (Error.invalid .noChordPatterns).message
  | chordPattern text => s!"Using harmony pattern {String.ofList text}"
  | drawsExhausted pattern =>
    s!"Random chord table draws exhausted for {pattern.quoted}, starting again"
  | resolvedPattern text => s!"Resolved harmony pattern {String.ofList text}"
  | sectionCount count => s!"Chord sections: {count}"
  | chords dump => s!"Chords: {String.ofList dump}"
  | patternText text => s!"Using pattern string {String.ofList text}"
  | part token text => s!"Pattern {String.ofList token}: {String.ofList text}"
  | repetitions count => s!"Repetitions: {String.ofList count}"
  | shapedPattern text => s!"Pattern: {String.ofList text}"
  | noteSkipped note tick =>
    s!"Skipping note {String.ofList note} at tick {tick}, outside the MIDI range"
  | writing tracks path => s!"Writing {tracks} tracks to {(path.map String.ofList).getD missing}"
  | loading path => s!"Loading {String.ofList path}"
  | configMissing path => s!"Config file {String.ofList path} not found. Using defaults."
  | rendered ticks sections => s!"Rendered {ticks} ticks in {sections} chord sections"
  | track name pattern => s!"Track {String.ofList name}: {String.ofList pattern}"
  | failed seed cause =>
    s!"Could not generate the song with seed {(seed.map toString).getD missing}: {cause}"

end Notice

/-- The name of a level. -/
def Level.name : Level → String
  | debug => "DEBUG"
  | info => "INFO"
  | warning => "WARNING"
  | error => "ERROR"

/-- A notice as a line of the log: its level, the reporter and the wording. -/
def Notice.line (n : Notice) : String := n.level.name ++ ":" ++ n.reporter ++ ":" ++ n.message

/-- A result or an error, and what was reported on the way. -/
structure Traced (α : Type) where
  notices : List Notice
  result : Except Error α

namespace Traced

variable {α β : Type}

/-- Nothing is reported. -/
def ofExcept (result : Except Error α) : Traced α := ⟨[], result⟩

/-- Reports a notice. -/
def report (n : Notice) : Traced Unit := ⟨[n], .ok ()⟩

/-- Reports notices in order. -/
def reportAll (notices : List Notice) : Traced Unit := ⟨notices, .ok ()⟩

/-- Reports a notice, if there is anything to report. -/
def reportOk (notice : Except Error Notice) : Traced Unit := ⟨notice.toOption.toList, .ok ()⟩

/-- Reports notices in order, up to one that cannot be worded; `done` are those reported so far, the
last one first. -/
def reportEach : (done : List Notice) → List (Except Error Notice) → Traced Unit
  | done, [] => ⟨done.reverse, .ok ()⟩
  | done, .ok n :: rest => reportEach (n :: done) rest
  | done, .error e :: _ => ⟨done.reverse, .error e⟩

/-- Runs one computation after another. After an error the second one is not run. -/
def bind (x : Traced α) (f : α → Traced β) : Traced β :=
  match x.result with
  | .error e => ⟨x.notices, .error e⟩
  | .ok a => ⟨x.notices ++ (f a).notices, (f a).result⟩

/-- A sequence reports what its steps report, up to the first one that fails. -/
instance : Monad Traced where
  pure a := ofExcept (.ok a)
  bind := bind

/-- A value that is given has itself as its result. -/
@[simp] theorem result_pure (a : α) : (pure a : Traced α).result = .ok a := rfl

/-- What is only lifted keeps its result. -/
@[simp] theorem result_ofExcept (r : Except Error α) : (ofExcept r).result = r := rfl

/-- The result of a sequence does not depend on what is reported. -/
@[simp] theorem result_bind (x : Traced α) (f : α → Traced β) :
    (x >>= f).result = x.result >>= fun a => (f a).result := by
  cases x with
  | mk notices result => cases result <;> rfl

end Traced

end Songsmith
