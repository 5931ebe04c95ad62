import Songsmith.Pattern.Parser

/-!
# Writing patterns

A pattern is written with every length in ticks, and with every velocity that is not the greatest.
-/

namespace Songsmith

/-- The mark of a legato note. -/
def Entry.legatoMark (e : Entry) : Text := if e.legato then ['~'] else []

/-- The velocity of an entry behind a colon, unless it is the greatest. -/
def Entry.velocitySuffix (maxVelocity : Int) (e : Entry) : Except Error Text :=
  if e.velocity = maxVelocity then .ok [] else (Integer.write e.velocity).map (':' :: ·)

/-- The value of an entry that is sounded: its wildcard, or else its pitch. -/
def Entry.valueText (e : Entry) : Except Error Text :=
  match e.wildcard, e.pitch with
  | some w, _ => .ok w
  | none, some pitch => Integer.write pitch
  | none, none => .ok ['-']

/-- Writes an entry as a token. -/
def Entry.write (maxVelocity : Int) (e : Entry) : Except Error Text := do
  if e.isPause then (Integer.write e.ticks).map fun length => '-' :: '/' :: length
  else
    let value ← e.valueText
    let length ← Integer.write e.ticks
    let velocity ← e.velocitySuffix maxVelocity
    .ok (value ++ e.legatoMark ++ '/' :: length ++ velocity)

namespace Pattern

/-- Writes a pattern. -/
def write (p : Pattern) (maxVelocity : Int := defaultMaxVelocity) : Except Error Text :=
  (p.entries.mapM (Entry.write maxVelocity)).map Text.commaJoin

/-- A pattern as it stands in a listing: its length and its text. -/
def describe (p : Pattern) : Except Error Text := do
  let ticks ← Integer.write p.ticks
  let text ← p.write
  return "Pattern(ticks=".toList ++ ticks ++ ", ".toList ++ (Text.quoted text).toList ++ [')']

end Pattern

end Songsmith
