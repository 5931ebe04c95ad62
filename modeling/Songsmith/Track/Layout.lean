import Songsmith.Pattern.Length
import Songsmith.Random.Source
import Songsmith.Track.FragmentGroups

/-!
# Layouts

A layout is a list of tokens: a hyphen for a pause, or a group key and a digit. Every token stands
for a part of the same length. The first token of a group makes a part by drawing fragments until
they fill the length exactly, a repeated token takes the part that was made for it, and a new token
of a known group makes another part, which has to differ from the group's parts so far where parts
are unique. All parts made are kept in a list, also when a later token fails.
-/

namespace Songsmith

/-- A token of a layout. -/
inductive LayoutToken where
  | pause
  | part (group digit : Char)
deriving Repr, DecidableEq

namespace LayoutToken

/-- Reads a token, with blanks allowed around it. -/
def read (text : Text) : Except Error LayoutToken :=
  match Text.trim text with
  | ['-'] => .ok pause
  | [group, digit] =>
    if Text.isNumeral digit then .ok (part group digit)
    else .error (.malformed (.layoutToken [group, digit]))
  | other => .error (.malformed (.layoutToken other))

end LayoutToken

/-- What parts are made by. -/
structure PartRule where
  groups : FragmentGroups
  /-- The exact length of every part. -/
  ticks : Nat
  /-- The parts of one group differ from each other. -/
  unique : Bool
  ticksPerBeat : Option Int

/-- A part, by the group and the digit of its token. -/
structure Part where
  group : Char
  digit : Char
  text : Text
deriving Repr, DecidableEq

namespace Layout

/-- How often a part is begun until its fragments fill it. -/
def fillLimit : Nat := 100

/-- How often a variation is made until it differs from the parts so far. -/
def variationLimit : Nat := 10000

/-- A fragment with the length that is counted for it. -/
structure Candidate where
  text : Text
  ticks : Except Error { n : Nat // 0 < n }

/-- The fragments of a group with their lengths. -/
def candidates (ticksPerBeat : Option Int) (g : FragmentGroup) : List Candidate :=
  g.fragments.map fun text => ⟨text, Length.countTicks text ticksPerBeat⟩

/-- Every group has a fragment to choose. -/
theorem candidates_ne_nil (ticksPerBeat : Option Int) (g : FragmentGroup) :
    candidates ticksPerBeat g ≠ [] := by
  simp [candidates, g.nonempty]

/-- The text of a pause as long as a part, in the unit that the layout is read in. In beats it has
the seventeen digits that make it convert back. -/
def pauseText (ticks : Nat) : Option Int → Except Error Text
  | none => (Integer.write ticks).map ('-' :: '/' :: ·)
  | some perBeat =>
    if perBeat = 0 then .error (.divisionByZero false)
    else
      match Binary64.quotient? ticks perBeat.natAbs with
      | none => .error (.overflow .quotient)
      | some beats =>
        .ok ('-' :: '/' :: ((if perBeat < 0 then ['-'] else []) ++ Decimal.write17 beats))

/-- The error of a group whose fragments never filled a part: it names the length, which therefore
has to be one that can be written. -/
def unfilled (rule : PartRule) (group : Char) : Error :=
  match Integer.write rule.ticks with
  | .ok ticks => .unsatisfied (.part ticks [group])
  | .error e => e

section
variable {σ : Type} [Source σ]

/-- Draws fragments until `remaining` ticks are filled; `drawn` holds the texts so far, the last one
first. Nothing results if a fragment goes past the end. -/
def attempt (cs : List Candidate) (nonempty : cs ≠ []) (remaining : Nat) (drawn : List Text)
    (source : σ) : Except Error (Option Text) × σ :=
  let (c, source) := Source.pick source cs nonempty
  match c.ticks with
  | .error e => (.error e, source)
  | .ok ⟨n, _⟩ =>
    if n = remaining then (.ok (some (Text.commaJoin (c.text :: drawn).reverse)), source)
    else if _ : n < remaining then
      attempt cs nonempty (remaining - n) (c.text :: drawn) source
    else (.ok none, source)
termination_by remaining

/-- Begins a part again and again until fragments fill it, at most `tries` times. -/
def fillWithin (rule : PartRule) (group : Char) (cs : List Candidate) (nonempty : cs ≠ []) :
    (tries : Nat) → σ → Except Error Text × σ
  | 0, source => (.error (unfilled rule group), source)
  | tries + 1, source =>
    match attempt cs nonempty rule.ticks [] source with
    | (.error e, source) => (.error e, source)
    | (.ok (some text), source) => (.ok text, source)
    | (.ok none, source) => fillWithin rule group cs nonempty tries source

/-- Makes parts until one is not among `taken`, at most `tries` times. -/
def varyWithin (rule : PartRule) (group digit : Char) (cs : List Candidate) (nonempty : cs ≠ [])
    (taken : List Text) : (tries : Nat) → σ → Except Error Text × σ
  | 0, source => (.error (.unsatisfied (.variation [group] [group, digit])), source)
  | tries + 1, source =>
    match fillWithin rule group cs nonempty fillLimit source with
    | (.error e, source) => (.error e, source)
    | (.ok text, source) =>
      if rule.unique && taken.contains text then
        varyWithin rule group digit cs nonempty taken tries source
      else (.ok text, source)

/-- Makes the part of a new token: the first one of its group as it comes, any other one as a
variation. -/
def makePart (rule : PartRule) (made : List Part) (group digit : Char) (source : σ) :
    Except Error Text × σ :=
  match rule.groups.find? group with
  | none => (.error (.dangling (.group [group])), source)
  | some g =>
    let cs := candidates rule.ticksPerBeat g
    let nonempty := candidates_ne_nil rule.ticksPerBeat g
    match made.filter (·.group == group) with
    | [] => fillWithin rule group cs nonempty fillLimit source
    | known => varyWithin rule group digit cs nonempty (known.map Part.text) variationLimit source

end

end Layout

/-- The outcome of laying out parts. -/
structure Layout (σ : Type) where
  /-- All parts that were made, in order. -/
  made : List Part
  /-- The texts of the tokens. -/
  result : Except Error (List Text)
  source : σ

namespace Layout

variable {σ : Type} [Source σ]

/-- Lays out tokens after those whose parts are `made` and whose texts are `done`, the last one
first. -/
def layTokens (rule : PartRule) :
    (made : List Part) → (done : List Text) → List Text → σ → Layout σ
  | made, done, [], source => ⟨made, .ok done.reverse, source⟩
  | made, done, token :: rest, source =>
    match LayoutToken.read token with
    | .error e => ⟨made, .error e, source⟩
    | .ok .pause =>
      match pauseText rule.ticks rule.ticksPerBeat with
      | .error e => ⟨made, .error e, source⟩
      | .ok text => layTokens rule made (text :: done) rest source
    | .ok (.part group digit) =>
      match made.find? fun p => p.group == group && p.digit == digit with
      | some p => layTokens rule made (p.text :: done) rest source
      | none =>
        match makePart rule made group digit source with
        | (.error e, source) => ⟨made, .error e, source⟩
        | (.ok text, source) =>
          layTokens rule (made ++ [⟨group, digit, text⟩]) (text :: done) rest source

/-- Lays out the parts of a layout text, in which shorthand is allowed. -/
def generate [Machine] (rule : PartRule) (layout : Text) (source : σ) : Layout σ :=
  match Shorthand.tokens layout with
  | .error e => ⟨[], .error e, source⟩
  | .ok tokens => layTokens rule [] [] tokens source

/-- The parts of the layout as one pattern text. -/
def text (l : Layout σ) : Except Error Text := l.result.map Text.commaJoin

end Layout

end Songsmith
