import Songsmith.Error

/-!
# Alternatives

A list of alternatives is one text with a separator between them. An escape character in front of a
separator, or of another escape character, makes it an ordinary character. Either role may be
without a character, and is then never played.
-/

namespace Songsmith.Alternatives

/-- Splits what follows `current`, the reversed start of an alternative; `none` if the text ends
behind a lone escape. `escaped` says that an escape stands just before the text. -/
def splitFrom? (separator escape : Option Char) :
    (current : Text) → (escaped : Bool) → Text → Option (List Text)
  | _, true, [] => none
  | current, false, [] => some [current.reverse]
  | current, true, c :: rest => splitFrom? separator escape (c :: current) false rest
  | current, false, c :: rest =>
    if escape = some c then splitFrom? separator escape current true rest
    else if separator = some c then
      (splitFrom? separator escape [] false rest).map (current.reverse :: ·)
    else splitFrom? separator escape (c :: current) false rest

/-- Splits a list of alternatives. -/
def split (text : Text) (separator : Option Char := some '|')
    (escape : Option Char := some '\\') : Except Error (List Text) :=
  match splitFrom? separator escape [] false text with
  | some parts => .ok parts
  | none => .error (.malformed (.trailingEscape text))

end Songsmith.Alternatives
