import Songsmith.Beats
import Songsmith.Text.Blank

/-!
# Lengths of tokens

The length of a token counts ticks, or beats where the ticks of one beat are given. A token without
a length lasts one tick or one beat. Every length that is read is positive, and the total of a
pattern text can be counted without reading anything but the lengths (`countTicks`).
-/

namespace Songsmith.Length

/-- The ticks that a written or missing length says, unless it says none. -/
def ticks? (ticksPerBeat : Option Int) : Option Text → Option Int
  | none => some (ticksPerBeat.getD 1)
  | some text =>
    match ticksPerBeat with
    | some perBeat => (RealText.readFinite? text).bind (Beats.ticks? · perBeat)
    | none => (Integer.read text).toOption

/-- Reads the length of a token. -/
def read (ticksPerBeat : Option Int) (length : Option Text) (token : Text) :
    Except Error { n : Nat // 0 < n } :=
  match ticks? ticksPerBeat length with
  | none => .error (.malformed (.tokenLength token))
  | some n =>
    if h : 0 < n then .ok ⟨n.toNat, Integer.toNat_pos h⟩
    else .error (.malformed (.tokenLengthNotPositive token))

/-- The length of a token, by what stands between its first slash and its first colon. -/
def ofToken (ticksPerBeat : Option Int) (token : Text) : Except Error { n : Nat // 0 < n } :=
  match (Text.upTo ':' token).splitOn '/' with
  | [_] => read ticksPerBeat none (Text.trim token)
  | [_, length] => read ticksPerBeat (some (Text.trim length)) (Text.trim token)
  | _ => .error (.malformed (.token (Text.trim token)))

/-- Adds the length of a token to a sum of lengths. -/
def addToken (ticksPerBeat : Option Int) (sum : { n : Nat // 0 < n }) (token : Text) :
    Except Error { n : Nat // 0 < n } :=
  (ofToken ticksPerBeat token).map fun n => ⟨sum.val + n.val, Nat.add_pos_left sum.property _⟩

/-- The total length of a pattern text. -/
def countTicks (text : Text) (ticksPerBeat : Option Int) : Except Error { n : Nat // 0 < n } :=
  if Text.isBlank text then .error (.malformed .blankPattern)
  else
    match text.splitOn ',' with
    | [] => .error (.malformed .blankPattern)
    | token :: rest => do rest.foldlM (addToken ticksPerBeat) (← ofToken ticksPerBeat token)

end Songsmith.Length
