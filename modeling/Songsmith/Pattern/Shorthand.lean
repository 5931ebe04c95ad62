import Songsmith.Cycle
import Songsmith.Number.Integer
import Songsmith.Text.Blank

/-!
# Repetition shorthand

`token*N` stands for `N` copies of a token and `(token,token)*N` for `N` copies of a group; groups
nest. Expansion cuts a text at the commas outside all parentheses (`splitTopLevel`), and each piece
into a body and a count. A body in parentheses is expanded in turn, and any other stands for itself.
The levels of nesting are counted down (`tokensWithin`) from what the stack has room for, so that
expansion ends at every text.
-/

namespace Songsmith.Shorthand

/-- Cuts what follows `current`, the reversed start of a piece, at the commas at depth zero.
`whole` is the text that errors show. -/
def splitFrom (whole : Text) : (depth : Nat) → (current : Text) → Text → Except Error (List Text)
  | 0, current, [] => .ok [current.reverse]
  | _ + 1, _, [] => .error (.malformed (.openParenthesis whole))
  | depth, current, '(' :: rest => splitFrom whole (depth + 1) ('(' :: current) rest
  | 0, _, ')' :: _ => .error (.malformed (.closingParenthesis whole))
  | depth + 1, current, ')' :: rest => splitFrom whole depth (')' :: current) rest
  | 0, current, ',' :: rest => (splitFrom whole 0 [] rest).map (current.reverse :: ·)
  | depth, current, c :: rest => splitFrom whole depth (c :: current) rest

/-- Cuts a text at the commas outside all parentheses. -/
def splitTopLevel (text : Text) : Except Error (List Text) := splitFrom text 0 [] text

/-- The digits at the end of an item, if a star stands before them, and the text before the star. -/
def repetition? (item : Text) : Option (Text × Text) :=
  let reversed := item.reverse
  let digits := (reversed.takeWhile Text.isDecimalDigit).reverse
  match digits, reversed.dropWhile Text.isDecimalDigit with
  | _ :: _, '*' :: body => some (body.reverse, digits)
  | _, _ => none

/-- The text between the parentheses that an item starts and ends with. -/
def group? : Text → Option Text
  | '(' :: rest => if rest.getLast? = some ')' then some rest.dropLast else none
  | _ => none

/-- The body of an item and how often it stands there; `whole` is the text that errors show. -/
def itemParts (whole item : Text) : Except Error (Text × Nat) :=
  match repetition? (Text.trim item) with
  | none => .ok (Text.trim item, 1)
  | some (body, digits) => do
    let count ← Integer.readNat digits
    if count < 1 then .error (.malformed (.repeatCount whole))
    else .ok (Text.trim body, count)

section
variable [Machine]

/-- The tokens that a text stands for, if its groups are nested less than `depth` deep. -/
def tokensWithin : (depth : Nat) → Text → Except Error (List Text)
  | 0, _ => .error (.exhausted .nesting)
  | depth + 1, text => do
    let items ← splitTopLevel text
    let parts ← items.mapM fun item => do
      let (body, count) ← itemParts text item
      match group? body with
      | some inner => tokensWithin depth inner >>= Cycle.repeated count
      | none =>
        if body.contains '(' || body.contains ')' then
          .error (.malformed (.misplacedParenthesis body))
        else Cycle.repeated count [body]
    return parts.flatten

/-- The tokens that a text stands for; the text itself is one more level than its groups. -/
def tokens (text : Text) : Except Error (List Text) := tokensWithin (Machine.groups + 1) text

/-- The text without shorthand: the plain tokens with commas between them. -/
def expand (text : Text) : Except Error Text := (tokens text).map Text.commaJoin

end

end Songsmith.Shorthand
