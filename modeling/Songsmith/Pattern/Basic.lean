import Songsmith.Cycle
import Songsmith.Number.Integer

/-!
# Patterns

A pattern is a sequence of entries, at least one, each of which lasts at least one tick and is a
note, a wildcard or a pause. A wildcard stands for a pitch that is given later, by `Pattern.assign`.
An entry without velocity is a pause whatever else it says.
-/

namespace Songsmith

/-- One slot of a pattern. -/
structure Entry where
  ticks : Nat
  /-- The pitch of a note, in semitones above the base pitch of the track. -/
  pitch : Option Int
  /-- The sign that stands in for a pitch. -/
  wildcard : Option Text
  velocity : Int
  /-- The note is held into the next one instead of being struck again. -/
  legato : Bool
  ticks_pos : 0 < ticks
deriving DecidableEq

namespace Entry

/-- An entry of given parts, whose length has to be positive. -/
def make (ticks : Int) (pitch : Option Int) (wildcard : Option Text) (velocity : Int)
    (legato : Bool) : Except Error Entry :=
  if h : 0 < ticks then .ok ⟨ticks.toNat, pitch, wildcard, velocity, legato, Integer.toNat_pos h⟩
  else Integer.write ticks >>= fun ticks => .error (.malformed (.entryLength ticks))

/-- A pause. -/
def pause (ticks : Nat) (positive : 0 < ticks) : Entry := ⟨ticks, none, none, 0, false, positive⟩

/-- The entry is silent: it has no velocity, or neither a pitch nor a wildcard. -/
def isPause (e : Entry) : Bool := e.velocity ≤ 0 || (e.pitch.isNone && e.wildcard.isNone)

/-- The entry is sounded and has a wildcard. -/
def isWildcard (e : Entry) : Bool := e.wildcard.isSome && !e.isPause

/-- The entry is sounded and has a pitch. -/
def isNote (e : Entry) : Bool := e.pitch.isSome && !e.isPause

/-- The pitch that a wildcard is given. -/
def lookup (offsets : List (Text × Int)) (wildcard : Text) : Except Error Int :=
  match offsets.find? (·.1 == wildcard) with
  | some (_, pitch) => .ok pitch
  | none => .error (.dangling (.wildcard wildcard))

/-- The entry with its wildcard, if any, replaced by the pitch it is given. -/
def assign (offsets : List (Text × Int)) (e : Entry) : Except Error Entry :=
  match e.wildcard with
  | none => .ok e
  | some w => (lookup offsets w).map fun pitch => { e with pitch := some pitch, wildcard := none }

end Entry

/-- A sequence of entries, at least one. -/
structure Pattern where
  entries : List Entry
  nonempty : entries ≠ []
deriving DecidableEq

namespace Pattern

/-- The pattern of given entries, of which there has to be one. -/
def ofEntries (entries : List Entry) : Except Error Pattern :=
  if h : entries = [] then .error (.malformed .noEntries) else .ok ⟨entries, h⟩

/-- The length of a pattern. -/
def ticks (p : Pattern) : Nat := Cycle.total Entry.ticks p.entries

/-- The patterns one after the other. -/
def concat (patterns : List Pattern) : Except Error Pattern :=
  ofEntries (patterns.flatMap entries)

/-- The pattern with every wildcard replaced by the pitch it is given. -/
def assign (offsets : List (Text × Int)) (p : Pattern) : Except Error Pattern :=
  p.entries.mapM (Entry.assign offsets) >>= ofEntries

end Pattern

end Songsmith
