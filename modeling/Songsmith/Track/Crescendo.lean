import Songsmith.Cycle
import Songsmith.Easing
import Songsmith.Notice
import Songsmith.Pattern.Printer
import Songsmith.Structure

/-!
# Crescendo tracks

A pattern is repeated to fill a number of ticks, with an optional pattern before and one behind the
repetitions. The velocity of every entry that is sounded is scaled by a power curve, from one
velocity at the first tick to another at the last one; lengths, pitches and pauses stay as they are.
-/

namespace Songsmith

/-- A pattern text and the unit of its lengths. -/
structure PatternSource where
  text : Text
  ticksPerBeat : Option Int

/-- A repeated pattern whose velocities follow a curve. -/
structure CrescendoTrack where
  body : PatternSource
  before : Option PatternSource
  behind : Option PatternSource
  /-- The total length. -/
  ticks : Nat
  minVelocity : Number
  maxVelocity : Number
  exponent : Number

namespace CrescendoTrack

/-- The track of given parts, whose total length has to be positive. -/
def make (body : PatternSource) (before behind : Option PatternSource) (ticks : Int)
    (minVelocity maxVelocity exponent : Number) : Except Error CrescendoTrack :=
  if ticks ≤ 0 then .error (.invalid .partTicks)
  else .ok ⟨body, before, behind, ticks.toNat, minVelocity, maxVelocity, exponent⟩

/-- Reads a pattern. -/
def readBody (song : Structure) (wildcards : Text) (p : PatternSource) : Except Error Pattern :=
  Pattern.parse p.text p.ticksPerBeat wildcards song.maxVelocity

/-- Reads a pattern that may be missing or blank. -/
def readFrame (song : Structure) (wildcards : Text) :
    Option PatternSource → Except Error (Option Pattern)
  | none => .ok none
  | some p => if Text.isBlank p.text then .ok none else (readBody song wildcards p).map some

/-- The entries of a pattern that may be missing. -/
def frameEntries (p : Option Pattern) : List Entry := (p.map Pattern.entries).getD []

/-- The length of a pattern that may be missing. -/
def frameTicks (p : Option Pattern) : Nat := (p.map Pattern.ticks).getD 0

/-- How often the body is repeated in the ticks that the frame leaves. -/
def repetitions (ticks frame body : Nat) : Except Error Nat := do
  if ticks < frame then .error (.unsatisfied .frameTooLong)
  else if (ticks - frame) % body = 0 then .ok ((ticks - frame) / body)
  else
    let left ← Integer.write (ticks - frame : Nat)
    let length ← Integer.write body
    .error (.unsatisfied (.notRepeatable left length))

/-- The velocity of an entry that is sounded, `curve` being the velocity that the curve has at its
first tick. Where the curve starts from one or more, no entry falls silent. -/
def shapedVelocity (track : CrescendoTrack) (song : Structure) (curve : Float) (velocity : Int) :
    Except Error Int := do
  let scaled := curve * (← Number.floatOfInt velocity)
  let n ← truncateFloat (scaled / (← Number.floatOfInt song.maxVelocity))
  let n := if n < 1 ∧ track.minVelocity.atLeast 1 then 1 else n
  .ok (max 0 (min n song.maxVelocity))

/-- The part of the total that lies before a tick. -/
def progress (tick last : Nat) : Except Error Float :=
  match Binary64.quotient? tick last with
  | some x => .ok (Binary64.toFloat false x)
  | none => .error (.overflow .quotient)

/-- An entry with the velocity that the curve gives it at its first tick. -/
def shape (track : CrescendoTrack) (song : Structure) (last : Nat) (tick : Nat) (e : Entry) :
    Except Error Entry := do
  if e.isPause then .ok e
  else
    let position ← progress tick last
    let curve ← Easing.curve position track.minVelocity track.maxVelocity track.exponent
    let velocity ← track.shapedVelocity song curve e.velocity
    .ok { e with velocity := velocity }

/-- The token of an entry with its velocity on the curve. -/
def shapeToken (track : CrescendoTrack) (song : Structure) (last : Nat) (entry : Nat × Entry) :
    Except Error Text :=
  track.shape song last entry.1 entry.2 >>= Entry.write song.maxVelocity

/-- The shaped pattern as a text, with lengths in ticks. -/
def generate [Machine] (track : CrescendoTrack) (song : Structure) (wildcards : Text) :
    Traced Text := do
  let before ← Traced.ofExcept (readFrame song wildcards track.before)
  let body ← Traced.ofExcept (readBody song wildcards track.body)
  let behind ← Traced.ofExcept (readFrame song wildcards track.behind)
  let count ← Traced.ofExcept
    (repetitions track.ticks (frameTicks before + frameTicks behind) body.ticks)
  let reported ← Traced.ofExcept (Integer.write count)
  Traced.report (.repetitions reported)
  if track.ticks < 2 then Traced.ofExcept (.error (.unsatisfied .crescendoTooShort))
  else
    let bodies ← Traced.ofExcept (Cycle.repeated count [body.entries])
    let entries := frameEntries before ++ bodies.flatten ++ frameEntries behind
    let tokens ← Traced.ofExcept
      ((Cycle.positions Entry.ticks 0 entries).mapM (track.shapeToken song (track.ticks - 1)))
    Traced.report (.shapedPattern (Text.commaJoin tokens))
    return Text.commaJoin tokens

/-- Renders the shaped pattern. -/
def render [Machine] (track : CrescendoTrack) (song : Structure) (wildcards : Text) :
    Traced Pattern := do
  let text ← track.generate song wildcards
  Traced.ofExcept (Pattern.parse text none wildcards song.maxVelocity)

end CrescendoTrack

end Songsmith
