import Songsmith.Pattern.Basic
import Songsmith.Pattern.Length

/-!
# Reading patterns

A pattern text is a list of tokens `<value>[~][/<length>][:<velocity>]` between commas. The value is
a number, a hyphen for a pause, or a declared wildcard character. `Token.ofText?` cuts a token into
its parts, and `Entry.ofToken` gives the parts their meaning.
-/

namespace Songsmith

/-- What a token sounds: a number, or a single sign. -/
inductive Token.Value where
  | number (text : Text)
  | sign (c : Char)
deriving Repr, DecidableEq

/-- A token of a pattern text, cut into its parts. -/
structure Token where
  value : Token.Value
  legato : Bool
  length : Option Text
  velocity : Option Text
deriving Repr, DecidableEq

namespace Token

/-- The character may stand for a value of its own. -/
def isSign (c : Char) : Bool :=
  !Text.isBlankChar c && !Text.isDecimalDigit c && c != '~' && c != '/' && c != ':' && c != ','

/-- The leading digits of a text, and what follows them. -/
def spanDigits (text : Text) : Text × Text :=
  (text.takeWhile Text.isDecimalDigit, text.dropWhile Text.isDecimalDigit)

/-- The value at the start of a token, and what follows it: a number if there are digits, otherwise
a single sign. -/
def spanValue? : Text → Option (Value × Text)
  | [] => none
  | c :: rest =>
    if c = '-' ∧ (spanDigits rest).1 ≠ [] then
      some (.number ('-' :: (spanDigits rest).1), (spanDigits rest).2)
    else if (spanDigits (c :: rest)).1 ≠ [] then
      some (.number (spanDigits (c :: rest)).1, (spanDigits (c :: rest)).2)
    else if isSign c then some (.sign c, rest)
    else none

/-- The legato mark at the start of a text, and what follows it. -/
def spanLegato : Text → Bool × Text
  | '~' :: rest => (true, rest)
  | text => (false, text)

/-- The length at the start of a text, if there is one, and what follows it. -/
def spanLength? : Text → Option (Option Text × Text)
  | '/' :: rest =>
    let inside (c : Char) : Bool := c != ':' && c != '/'
    if rest.takeWhile inside = [] then none
    else some (some (rest.takeWhile inside), rest.dropWhile inside)
  | text => some (none, text)

/-- Digits, after an optional minus sign, and nothing else. -/
def isIntegerText : Text → Bool
  | '-' :: rest => !rest.isEmpty && rest.all Text.isDecimalDigit
  | text => !text.isEmpty && text.all Text.isDecimalDigit

/-- The velocity that makes up the rest of a token, if there is one. -/
def velocityOf? : Text → Option (Option Text)
  | [] => some none
  | ':' :: rest => if isIntegerText rest then some (some rest) else none
  | _ => none

/-- Cuts a token without blanks around it into its parts. -/
def ofText? (text : Text) : Option Token := do
  let (value, rest) ← spanValue? text
  let (legato, rest) := spanLegato rest
  let (length, rest) ← spanLength? rest
  let velocity ← velocityOf? rest
  some ⟨value, legato, length, velocity⟩

end Token

namespace Entry

/-- A velocity that is out of range. The greatest one is shown, for which it must not be too long to
be written. -/
def outOfRange (maxVelocity : Int) (token : Text) : Error :=
  match Integer.write maxVelocity with
  | .ok _ => .malformed (.velocity maxVelocity token)
  | .error e => e

/-- The velocity that a token states, or the greatest one if it states none. -/
def velocityOf (maxVelocity : Int) (token : Text) : Option Text → Except Error Int
  | none => .ok maxVelocity
  | some text => do
    let velocity ← Integer.read text
    if velocity < 0 ∨ maxVelocity < velocity then .error (outOfRange maxVelocity token)
    else .ok velocity

/-- The entry of a value that is sounded. A sign that counts as a numeral is read as a number, and
any other one has to be declared. -/
def sounded (ticks : { n : Nat // 0 < n }) (wildcards : Text) (velocity : Int) (legato : Bool)
    (token : Text) : Token.Value → Except Error Entry
  | .number text =>
    (Integer.read text).map fun pitch =>
      ⟨ticks, some pitch, none, velocity, legato, ticks.property⟩
  | .sign c =>
    if Text.isNumeral c then
      (Integer.read [c]).map fun pitch =>
        ⟨ticks, some pitch, none, velocity, legato, ticks.property⟩
    else if wildcards.contains c then
      .ok ⟨ticks, none, some [c], velocity, legato, ticks.property⟩
    else .error (.malformed (.wildcard [c] token))

/-- The entry of a token's parts; `token` is the text that errors show. A hyphen is a pause, and so
is whatever states a velocity of zero. -/
def ofToken (ticksPerBeat : Option Int) (wildcards : Text) (maxVelocity : Int) (token : Text)
    (parts : Token) : Except Error Entry := do
  let ticks ← Length.read ticksPerBeat parts.length token
  if parts.value = .sign '-' then .ok (pause ticks ticks.property)
  else
    let velocity ← velocityOf maxVelocity token parts.velocity
    if parts.velocity.isSome ∧ velocity = 0 then .ok (pause ticks ticks.property)
    else sounded ticks wildcards velocity parts.legato token parts.value

/-- Reads one token, with blanks allowed around it. -/
def parse (ticksPerBeat : Option Int) (wildcards : Text) (maxVelocity : Int) (text : Text) :
    Except Error Entry :=
  match Token.ofText? (Text.trim text) with
  | none => .error (.malformed (.token (Text.trim text)))
  | some parts => ofToken ticksPerBeat wildcards maxVelocity (Text.trim text) parts

end Entry

namespace Pattern

/-- The velocity that a pattern refers to where no other is given. -/
def defaultMaxVelocity : Int := 127

/-- Reads a pattern text. Lengths are in beats where the ticks of one beat are given; `wildcards`
are the characters that may stand for a pitch, and `maxVelocity` is the velocity of a token that
states none and the bound for the others. -/
def parse (text : Text) (ticksPerBeat : Option Int) (wildcards : Text) (maxVelocity : Int) :
    Except Error Pattern :=
  if Text.isBlank text then .error (.malformed .blankPattern)
  else (text.splitOn ',').mapM (Entry.parse ticksPerBeat wildcards maxVelocity) >>= ofEntries

end Pattern

end Songsmith
