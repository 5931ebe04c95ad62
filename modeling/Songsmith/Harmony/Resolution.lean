import Songsmith.Harmony.ChordPattern
import Songsmith.Harmony.Palette
import Songsmith.Random.Source
import Songsmith.Text.Digit
import Songsmith.Text.Letter

/-!
# Resolving chord patterns

A chord pattern is resolved from left to right: every token gets the name of a chord. A
backreference `$N` takes the name at position `N`, a literal keeps its own, and a palette number `T`
or `T!M` draws a name from palette `T` that differs from the chord before, from the first chord if
the token is the last one, and from the chord at position `M`. All exclusions hold at once. A draw
that runs out of tries discards the whole pass; the pass is begun again a limited number of times,
with nothing kept but the state of the source.
-/

namespace Songsmith

/-- A token whose reference is resolved to a chord name. -/
structure ResolvedToken where
  startsSection : Bool
  name : ChordName
  beats : BeatLength
deriving DecidableEq

/-- A resolved token as it stands in a chord pattern. -/
def ResolvedToken.write (t : ResolvedToken) : Text :=
  (if t.startsSection then ['+'] else []) ++ t.name.text ++ '/' :: t.beats.text

namespace Resolution

/-- The tries of one draw. -/
def drawLimit : Nat := 1000

/-- How often a discarded pass is begun again. -/
def restartLimit : Nat := 1

/-- Reads the position of a backreference. -/
def backPosition (reference digits : Text) : Except Error Nat :=
  if Text.isNumeralText digits then Integer.readNat digits
  else .error (.malformed (.backreference reference))

/-- The name that a backreference at `position` takes from those resolved before. -/
def backName (resolved : List ChordName) (reference digits : Text) : Except Error ChordName := do
  let index ← backPosition reference digits
  match resolved[index]? with
  | some name => .ok name
  | none => .error (.dangling (.backreference reference resolved.length))

/-- A reference without the line break that may end it. -/
def withoutLineBreak (reference : Text) : Text :=
  if reference.getLast? = some '\n' then reference.dropLast else reference

/-- The digits of a palette reference: its number, and the position it excludes. -/
def paletteDigits? (reference : Text) : Option (Text × Option Text) :=
  let body := withoutLineBreak reference
  let number := body.takeWhile Text.isDecimalDigit
  match number, body.dropWhile Text.isDecimalDigit with
  | _ :: _, [] => some (number, none)
  | _ :: _, '!' :: c :: digits =>
    if (c :: digits).all Text.isDecimalDigit then some (number, some (c :: digits)) else none
  | _, _ => none

/-- The chords that every draw is kept from: the one before, and the first one in the last place. -/
def neighbours (resolved : List ChordName) (isLast : Bool) : List ChordName :=
  resolved.getLast?.toList ++ if isLast then resolved.head?.toList else []

/-- The chord at the position that a palette reference excludes, if it excludes one. -/
def excludedName (resolved : List ChordName) (reference : Text) :
    Option Text → Except Error (List ChordName)
  | none => .ok []
  | some digits => do
    let index ← Integer.readNat digits
    match resolved[index]? with
    | some name => .ok [name]
    | none => .error (.dangling (.exclusion index reference))

/-- The palette of a reference, and all chords that a draw for it is kept from. -/
def drawRule (palettes : List Palette) (resolved : List ChordName) (isLast : Bool)
    (reference : Text) : Except Error (Palette × List ChordName) :=
  match paletteDigits? reference with
  | none => .error (.malformed (.tableReference reference))
  | some (number, exclusion) => do
    let index ← Integer.readNat number
    match palettes[index]? with
    | none => .error (.dangling (.table index))
    | some palette =>
      let excluded ← excludedName resolved reference exclusion
      .ok (palette, neighbours resolved isLast ++ excluded)

section
variable {σ : Type} [Source σ]

/-- Draws from a palette until the name differs from all excluded chords, at most `tries` times. -/
def drawOutside (palette : Palette) (excluded : List ChordName) :
    (tries : Nat) → σ → Option ChordName × σ
  | 0, source => (none, source)
  | tries + 1, source =>
    let (name, source) := Source.pick source palette.names palette.nonempty
    if excluded.any name.sameHarmony then drawOutside palette excluded tries source
    else (some name, source)

/-- The name of a reference, or nothing if a draw runs out of tries. -/
def resolveReference (palettes : List Palette) (resolved : List ChordName) (isLast : Bool)
    (reference : Text) (source : σ) : Except Error (Option ChordName) × σ :=
  match reference with
  | '$' :: digits => ((backName resolved reference digits).map some, source)
  | c :: _ =>
    if Text.isLetter c then ((ChordName.read reference).map some, source)
    else
      match drawRule palettes resolved isLast reference with
      | .error e => (.error e, source)
      | .ok (palette, excluded) =>
        let (name, source) := drawOutside palette excluded drawLimit source
        (.ok name, source)
  | [] => (.error (.malformed (.tableReference reference)), source)

/-- Resolves tokens from left to right after those already resolved. Nothing results if a draw runs
out of tries. -/
def resolveTokens (palettes : List Palette) :
    (resolved : List ChordName) → List ChordToken → σ →
      Except Error (Option (List ResolvedToken)) × σ
  | _, [], source => (.ok (some []), source)
  | resolved, token :: rest, source =>
    match resolveReference palettes resolved rest.isEmpty token.reference source with
    | (.error e, source) => (.error e, source)
    | (.ok none, source) => (.ok none, source)
    | (.ok (some name), source) =>
      let (result, source) := resolveTokens palettes (resolved ++ [name]) rest source
      (result.map (·.map (⟨token.startsSection, name, token.beats⟩ :: ·)), source)

end

end Resolution

/-- The outcome of resolving a chord pattern. -/
structure Resolution (σ : Type) where
  /-- How often a discarded pass was begun again. -/
  restarts : Nat
  result : Except Error (List ResolvedToken)
  /-- The source after the last draw, also when nothing was resolved. -/
  source : σ

namespace Resolution

variable {σ : Type} [Source σ]

/-- Resolves the tokens of a pattern, beginning again at most `left` times. -/
def resolvePasses (palettes : List Palette) (pattern : Text) (tokens : List ChordToken) :
    (restarts left : Nat) → σ → Resolution σ
  | restarts, left, source =>
    match resolveTokens palettes [] tokens source, left with
    | (.error e, source), _ => ⟨restarts, .error e, source⟩
    | (.ok (some resolved), source), _ => ⟨restarts, .ok resolved, source⟩
    | (.ok none, source), 0 => ⟨restarts, .error (.unsatisfied (.chords pattern)), source⟩
    | (.ok none, source), left + 1 =>
      resolvePasses palettes pattern tokens (restarts + 1) left source

/-- Resolves a chord pattern. -/
def resolve (palettes : List Palette) (p : ChordPattern) (source : σ) : Resolution σ :=
  match p.tokens with
  | .error e => ⟨0, .error e, source⟩
  | .ok tokens => resolvePasses palettes p.text tokens 0 restartLimit source

/-- The text of resolved tokens. -/
def write (tokens : List ResolvedToken) : Text := Text.commaJoin (tokens.map (·.write))

end Resolution

end Songsmith
