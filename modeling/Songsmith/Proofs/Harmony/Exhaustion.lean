import Songsmith.Proofs.Harmony.DrawnChanges
import Songsmith.Proofs.Harmony.Failures
import Songsmith.Proofs.Random.Picks

/-!
# When resolving gives up

For a pattern without malformed or dangling references every pass ends in one of two ways. It
finishes (`Resolution.Finishes`), and every draw of it gave the first name that its token is not
kept from; or it comes to a draw whose tries are all rejected (`Resolution.Exhausts`) and is
discarded. `Resolution.resolve_gives_up_iff` puts two passes together: resolving fails exactly if
two passes in a row are exhausted, the second from where the first one left the source, and
otherwise gives what the first pass that finishes gives. How many names are drawn on the way is
seen by a source that counts (`Counted`), of which no result depends.

Both ways to end are relations over the tokens, which say of a draw what is rejected and do not
mention the search for it. That the search agrees with them is shown for one draw
(`Resolution.drawOutside_of_kept`, `Resolution.drawOutside_of_rejected`) and handed on from the
left to the right.
-/

namespace Songsmith

instance (token : ChordToken) : Decidable token.IsDraw :=
  inferInstanceAs (Decidable (_ ∧ _))

namespace Resolution

/-! ## How a pass ends -/

/-- What a reference to a palette asks for: a name of the palette, and the chord at the excluded
position, if there is one. -/
inductive Asks (palettes : List Palette) (done : List ChordName) :
    (reference : Text) → Palette → (asked : Option ChordName) → Prop
  | plain {reference number : Text} {index : Nat} {palette : Palette} :
      reference.head?.any Text.isLetter = false → PaletteText reference number none →
      Integer.readNat number = .ok index → palettes[index]? = some palette →
      Asks palettes done reference palette none
  | excluding {reference number digits : Text} {index position : Nat} {palette : Palette}
      {other : ChordName} : reference.head?.any Text.isLetter = false →
      PaletteText reference number (some digits) → Integer.readNat number = .ok index →
      palettes[index]? = some palette → Integer.readNat digits = .ok position →
      done[position]? = some other → Asks palettes done reference palette (some other)

/-- The chords that a draw is kept from: the one before, the first one in the last place, and the
one that the reference excludes. -/
inductive Excludes (done : List ChordName) (isLast : Bool) (asked : Option ChordName) :
    ChordName → Prop
  | previous {other : ChordName} : done.getLast? = some other → Excludes done isLast asked other
  | first {other : ChordName} : isLast = true → done.head? = some other →
      Excludes done isLast asked other
  | asked {other : ChordName} : asked = some other → Excludes done isLast asked other

/-- A name means the same harmony as a chord that the draw is kept from. -/
def Rejected (done : List ChordName) (isLast : Bool) (asked : Option ChordName)
    (name : ChordName) : Prop :=
  ∃ other, Excludes done isLast asked other ∧ name.sameHarmony other = true

/-- A reference of a token at this position is well-formed and leads to something: a literal names a
chord, a palette exists, and the positions that are referred to come earlier. -/
inductive InRange (palettes : List Palette) (position : Nat) : (reference : Text) → Prop
  | literal {c : Char} {rest : Text} {name : ChordName} : Text.isLetter c = true →
      ChordName.read (c :: rest) = .ok name → InRange palettes position (c :: rest)
  | back {digits : Text} {index : Nat} : Text.isNumeralText digits = true →
      Integer.readNat digits = .ok index → index < position →
      InRange palettes position ('$' :: digits)
  | palette {reference number : Text} {exclusion : Option Text} {index : Nat} {palette : Palette} :
      reference.head?.any Text.isLetter = false → PaletteText reference number exclusion →
      Integer.readNat number = .ok index → palettes[index]? = some palette →
      (∀ digits ∈ exclusion, ∃ earlier < position, Integer.readNat digits = .ok earlier) →
      InRange palettes position reference

section
variable {σ : Type} [Source σ]

/-- The source after a number of draws from a palette. -/
def afterDraws (palette : Palette) : Nat → σ → σ
  | 0, source => source
  | n + 1, source => afterDraws palette n (Source.pick source palette.names palette.nonempty).2

/-- The name that a palette gives after a number of draws. -/
def nthDraw (palette : Palette) (n : Nat) (source : σ) : ChordName :=
  (Source.pick (afterDraws palette n source) palette.names palette.nonempty).1

/-- The name that a reference gives, with the source before and after it. A draw gives the first
name that is not rejected, within a thousand tries. -/
inductive Gives (palettes : List Palette) (done : List ChordName) (isLast : Bool) :
    (reference : Text) → σ → ChordName → σ → Prop
  | literal {c : Char} {rest : Text} {name : ChordName} {source : σ} : Text.isLetter c = true →
      ChordName.read (c :: rest) = .ok name →
      Gives palettes done isLast (c :: rest) source name source
  | back {digits : Text} {index : Nat} {name : ChordName} {source : σ} :
      Text.isNumeralText digits = true → Integer.readNat digits = .ok index →
      done[index]? = some name → Gives palettes done isLast ('$' :: digits) source name source
  | draw {reference : Text} {palette : Palette} {asked : Option ChordName} {source : σ} {n : Nat} :
      Asks palettes done reference palette asked → n < 1000 →
      (∀ i < n, Rejected done isLast asked (nthDraw palette i source)) →
      ¬ Rejected done isLast asked (nthDraw palette n source) →
      Gives palettes done isLast reference source (nthDraw palette n source)
        (afterDraws palette (n + 1) source)

/-- A thousand draws in a row for the reference are rejected. -/
inductive RunsOut (palettes : List Palette) (done : List ChordName) (isLast : Bool)
    (reference : Text) (source : σ) : σ → Prop
  | intro {palette : Palette} {asked : Option ChordName} :
      Asks palettes done reference palette asked →
      (∀ i < 1000, Rejected done isLast asked (nthDraw palette i source)) →
      RunsOut palettes done isLast reference source (afterDraws palette 1000 source)

/-- A pass over tokens, after the names resolved before, finishes with these. -/
inductive Finishes (palettes : List Palette) :
    (done : List ChordName) → List ChordToken → σ → List ResolvedToken → σ → Prop
  | nil {done : List ChordName} {source : σ} : Finishes palettes done [] source [] source
  | cons {done : List ChordName} {token : ChordToken} {rest : List ChordToken} {name : ChordName}
      {resolved : List ResolvedToken} {source middle stop : σ} :
      Gives palettes done rest.isEmpty token.reference source name middle →
      Finishes palettes (done ++ [name]) rest middle resolved stop →
      Finishes palettes done (token :: rest) source
        (⟨token.startsSection, name, token.beats⟩ :: resolved) stop

/-- A pass over tokens, after the names resolved before, comes to one that runs out of tries. -/
inductive Exhausts (palettes : List Palette) :
    (done : List ChordName) → List ChordToken → σ → σ → Prop
  | here {done : List ChordName} {token : ChordToken} {rest : List ChordToken} {source stop : σ} :
      RunsOut palettes done rest.isEmpty token.reference source stop →
      Exhausts palettes done (token :: rest) source stop
  | later {done : List ChordName} {token : ChordToken} {rest : List ChordToken} {name : ChordName}
      {source middle stop : σ} :
      Gives palettes done rest.isEmpty token.reference source name middle →
      Exhausts palettes (done ++ [name]) rest middle stop →
      Exhausts palettes done (token :: rest) source stop

end

/-! ## One draw -/

section
variable {σ : Type} [Source σ] {palettes : List Palette} {palette : Palette}
  {done excluded : List ChordName} {isLast : Bool} {asked : Option ChordName} {reference : Text}
  {name : ChordName} {source middle stop : σ}

/-- If every try is rejected, the draws are lost and there is no name. -/
theorem drawOutside_of_rejected {tries : Nat}
    (h : ∀ i < tries, excluded.any (nthDraw palette i source).sameHarmony = true) :
    drawOutside palette excluded tries source = (none, afterDraws palette tries source) := by
  induction tries generalizing source with
  | zero => rfl
  | succ tries ih =>
    have hfirst := h 0 (Nat.succ_pos _)
    exact (if_pos hfirst).trans (ih fun i hi => h (i + 1) (Nat.succ_lt_succ hi))

/-- The first name that is not rejected is kept, and the tries after it are not made. -/
theorem drawOutside_of_kept {tries n : Nat} (hn : n < tries)
    (h : ∀ i < n, excluded.any (nthDraw palette i source).sameHarmony = true)
    (hkept : excluded.any (nthDraw palette n source).sameHarmony = false) :
    drawOutside palette excluded tries source =
      (some (nthDraw palette n source), afterDraws palette (n + 1) source) := by
  induction n generalizing tries source with
  | zero =>
    obtain ⟨tries, rfl⟩ := Nat.exists_eq_add_one_of_ne_zero (Nat.ne_of_gt hn)
    exact if_neg (Bool.eq_false_iff.1 hkept)
  | succ n ih =>
    obtain ⟨tries, rfl⟩ := Nat.exists_eq_add_one_of_ne_zero (Nat.ne_of_gt (Nat.zero_lt_of_lt hn))
    have hfirst := h 0 (Nat.succ_pos _)
    exact (if_pos hfirst).trans
      (ih (Nat.lt_of_succ_lt_succ hn) (fun i hi => h (i + 1) (Nat.succ_lt_succ hi)) hkept)

/-- The list that draws are compared with holds the chords that they are kept from. -/
theorem mem_excluded_iff {other : ChordName} :
    other ∈ neighbours done isLast ++ asked.toList ↔ Excludes done isLast asked other := by
  rw [List.mem_append, neighbours, List.mem_append, Option.mem_toList, Option.mem_toList]
  constructor
  · rintro ((h | h) | h)
    · exact .previous h
    · cases isLast with
      | false => cases h
      | true => exact .first rfl (Option.mem_toList.1 h)
    · exact .asked h
  · rintro (h | ⟨rfl, h⟩ | h)
    · exact .inl (.inl h)
    · exact .inl (.inr (Option.mem_toList.2 h))
    · exact .inr h

/-- A draw meets a chord of the list when it is rejected. -/
theorem any_excluded_iff :
    (neighbours done isLast ++ asked.toList).any name.sameHarmony = true ↔
      Rejected done isLast asked name := by
  simp only [List.any_eq_true, mem_excluded_iff, Rejected]

/-- The palette and the list of chords for a reference that is drawn for. -/
theorem drawRule_of_asks (h : Asks palettes done reference palette asked) (isLast : Bool) :
    drawRule palettes done isLast reference =
      .ok (palette, neighbours done isLast ++ asked.toList) := by
  cases h with
  | plain _ htext hindex hpalette =>
    rw [drawRule, paletteDigits?_of_paletteText htext]
    refine Outcome.bind_eq_ok_iff.2 ⟨_, hindex, ?_⟩
    rw [hpalette]
    rfl
  | excluding _ htext hindex hpalette hposition hother =>
    rw [drawRule, paletteDigits?_of_paletteText htext]
    refine Outcome.bind_eq_ok_iff.2 ⟨_, hindex, ?_⟩
    rw [hpalette]
    refine Outcome.bind_eq_ok_iff.2 ⟨[_], Outcome.bind_eq_ok_iff.2 ⟨_, hposition, ?_⟩, rfl⟩
    rw [hother]

/-- A reference to a palette is resolved by its draws. -/
theorem resolveReference_of_asks (h : Asks palettes done reference palette asked) (isLast : Bool)
    (source : σ) :
    let drawn := drawOutside palette (neighbours done isLast ++ asked.toList) drawLimit source
    resolveReference palettes done isLast reference source = (.ok drawn.1, drawn.2) := by
  have hrule := drawRule_of_asks h isLast
  obtain ⟨number, exclusion, htext, hletter⟩ : ∃ number exclusion,
      PaletteText reference number exclusion ∧ reference.head?.any Text.isLetter = false := by
    cases h with
    | plain hletter htext | excluding hletter htext => exact ⟨_, _, htext, hletter⟩
  obtain ⟨c, rest, rfl, hmark⟩ := htext.exists_cons
  have hother : Text.isLetter c = false := hletter
  simp [resolveReference, hother, hrule]

/-! ## One reference -/

/-- A reference that gives a name is resolved to it. -/
theorem resolveReference_of_gives (h : Gives palettes done isLast reference source name stop) :
    resolveReference palettes done isLast reference source = (.ok (some name), stop) := by
  cases h with
  | literal hletter hread =>
    rw [resolveReference_of_letter hletter, hread]
    rfl
  | @back digits _ _ _ hnumeral hindex hname =>
    have hback : backName done ('$' :: digits) digits = .ok name :=
      Outcome.bind_eq_ok_iff.2 ⟨_, (if_pos hnumeral).trans hindex, by rw [hname]⟩
    rw [resolveReference, hback]
    rfl
  | @draw _ palette asked _ n hasks hn hrejected hkept =>
    have hdraw : drawOutside palette (neighbours done isLast ++ asked.toList) drawLimit source =
        (some (nthDraw palette n source), afterDraws palette (n + 1) source) :=
      drawOutside_of_kept hn (fun i hi => any_excluded_iff.2 (hrejected i hi))
        (Bool.eq_false_iff.2 fun hany => hkept (any_excluded_iff.1 hany))
    rw [resolveReference_of_asks hasks, hdraw]

/-- A reference that runs out of tries is resolved to nothing. -/
theorem resolveReference_of_runsOut (h : RunsOut palettes done isLast reference source stop) :
    resolveReference palettes done isLast reference source = (.ok none, stop) := by
  cases h with
  | @intro palette asked hasks hrejected =>
    have hdraw : drawOutside palette (neighbours done isLast ++ asked.toList) drawLimit source =
        (none, afterDraws palette 1000 source) :=
      drawOutside_of_rejected fun i hi => any_excluded_iff.2 (hrejected i hi)
    rw [resolveReference_of_asks hasks, hdraw]

/-- Up to a limit a property holds throughout, or there is a first number where it fails. -/
theorem forall_or_exists_first {P : Nat → Prop} (limit : Nat) :
    (∀ i < limit, P i) ∨ ∃ n < limit, (∀ i < n, P i) ∧ ¬ P n := by
  induction limit with
  | zero => exact .inl nofun
  | succ limit ih =>
    obtain hall | ⟨n, hn, hfirst⟩ := ih
    · by_cases hP : P limit
      · refine .inl fun i hi => ?_
        rcases Nat.lt_succ_iff_lt_or_eq.1 hi with hi | rfl
        · exact hall i hi
        · exact hP
      · exact .inr ⟨limit, Nat.lt_succ_self _, hall, hP⟩
    · exact .inr ⟨n, Nat.lt_succ_of_lt hn, hfirst⟩

/-- A reference to a palette gives a name or runs out of tries: the thousand draws hold one that is
not rejected, or do not. -/
theorem gives_or_runsOut_of_asks (h : Asks palettes done reference palette asked) (isLast : Bool)
    (source : σ) :
    (∃ name stop, Gives palettes done isLast reference source name stop) ∨
      ∃ stop, RunsOut palettes done isLast reference source stop := by
  obtain hall | ⟨n, hn, hrejected, hkept⟩ := forall_or_exists_first
    (P := fun i => Rejected done isLast asked (nthDraw palette i source)) 1000
  · exact .inr ⟨_, .intro h hall⟩
  · exact .inl ⟨_, _, .draw h hn hrejected hkept⟩

/-- A reference that leads to something gives a name or runs out of tries. -/
theorem InRange.gives_or_runsOut (h : InRange palettes done.length reference) (isLast : Bool)
    (source : σ) :
    (∃ name stop, Gives palettes done isLast reference source name stop) ∨
      ∃ stop, RunsOut palettes done isLast reference source stop := by
  cases h with
  | literal hletter hread => exact .inl ⟨_, _, .literal hletter hread⟩
  | back hnumeral hindex hlt =>
    exact .inl ⟨_, _, .back hnumeral hindex (List.getElem?_eq_getElem hlt)⟩
  | @palette _ number exclusion index palette hletter htext hindex hpalette hexclusion =>
    cases exclusion with
    | none => exact gives_or_runsOut_of_asks (.plain hletter htext hindex hpalette) isLast source
    | some digits =>
      obtain ⟨earlier, hlt, hearlier⟩ := hexclusion digits rfl
      exact gives_or_runsOut_of_asks (.excluding hletter htext hindex hpalette hearlier
        (List.getElem?_eq_getElem hlt)) isLast source

/-! ## One pass -/

/-- A pass that finishes gives what it finishes with. -/
theorem resolveTokens_of_finishes {tokens : List ChordToken} {resolved : List ResolvedToken}
    (h : Finishes palettes done tokens source resolved stop) :
    resolveTokens palettes done tokens source = (.ok (some resolved), stop) := by
  induction h with
  | nil => rfl
  | cons hname _ ih =>
    rw [resolveTokens, resolveReference_of_gives hname]
    simp only [ih]
    rfl

/-- A pass that comes to a token without tries is discarded. -/
theorem resolveTokens_of_exhausts {tokens : List ChordToken}
    (h : Exhausts palettes done tokens source stop) :
    resolveTokens palettes done tokens source = (.ok none, stop) := by
  induction h with
  | here hout => rw [resolveTokens, resolveReference_of_runsOut hout]
  | later hname _ ih =>
    rw [resolveTokens, resolveReference_of_gives hname]
    simp only [ih]
    rfl

/-- A pass over tokens in range finishes or comes to one that runs out of tries. -/
theorem finishes_or_exhausts {tokens : List ChordToken}
    (h : ∀ (k : Nat) token, tokens[k]? = some token →
      InRange palettes (done.length + k) token.reference) (source : σ) :
    (∃ resolved stop, Finishes palettes done tokens source resolved stop) ∨
      ∃ stop, Exhausts palettes done tokens source stop := by
  induction tokens generalizing done source with
  | nil => exact .inl ⟨_, _, .nil⟩
  | cons token rest ih =>
    obtain ⟨name, middle, hname⟩ | ⟨stop, hout⟩ :=
      (h 0 token rfl).gives_or_runsOut rest.isEmpty source
    · have hrest : ∀ (k : Nat) token, rest[k]? = some token →
          InRange palettes ((done ++ [name]).length + k) token.reference := by
        intro k token' htoken
        have := h (k + 1) token' htoken
        rwa [List.length_append, List.length_singleton, Nat.add_assoc, Nat.add_comm 1]
      obtain ⟨resolved, stop, hfinishes⟩ | ⟨stop, hexhausts⟩ := ih hrest middle
      · exact .inl ⟨_, _, .cons hname hfinishes⟩
      · exact .inr ⟨_, .later hname hexhausts⟩
    · exact .inr ⟨_, .here hout⟩

/-- If all references lead to something, a pass gives names only by finishing with them. -/
theorem resolveTokens_eq_some_iff {tokens : List ChordToken}
    (h : ∀ (k : Nat) token, tokens[k]? = some token →
      InRange palettes (done.length + k) token.reference) {resolved : List ResolvedToken} :
    resolveTokens palettes done tokens source = (.ok (some resolved), stop) ↔
      Finishes palettes done tokens source resolved stop := by
  refine ⟨fun hpass => ?_, resolveTokens_of_finishes⟩
  obtain ⟨_, _, hfinishes⟩ | ⟨_, hexhausts⟩ := finishes_or_exhausts h source
  · cases hpass.symm.trans (resolveTokens_of_finishes hfinishes)
    exact hfinishes
  · cases hpass.symm.trans (resolveTokens_of_exhausts hexhausts)

/-- If all references lead to something, a pass is discarded only where a token runs out of tries.
-/
theorem resolveTokens_eq_none_iff {tokens : List ChordToken}
    (h : ∀ (k : Nat) token, tokens[k]? = some token →
      InRange palettes (done.length + k) token.reference) :
    resolveTokens palettes done tokens source = (.ok none, stop) ↔
      Exhausts palettes done tokens source stop := by
  refine ⟨fun hpass => ?_, resolveTokens_of_exhausts⟩
  obtain ⟨_, _, hfinishes⟩ | ⟨_, hexhausts⟩ := finishes_or_exhausts h source
  · cases hpass.symm.trans (resolveTokens_of_finishes hfinishes)
  · cases hpass.symm.trans (resolveTokens_of_exhausts hexhausts)
    exact hexhausts

/-- After a pass that is discarded comes the next one, from where the source is by then. -/
theorem resolvePasses_of_discarded {pattern : Text} {tokens : List ChordToken} {next : σ}
    (h : resolveTokens palettes [] tokens source = (.ok none, next)) {restarts left : Nat} :
    resolvePasses palettes pattern tokens restarts (left + 1) source =
      resolvePasses palettes pattern tokens (restarts + 1) left next := by
  rw [resolvePasses.eq_def]
  dsimp only
  rw [h]

/-- When the last pass is discarded too, the pattern is given up. -/
theorem resolvePasses_of_last {pattern : Text} {tokens : List ChordToken} {next : σ}
    (h : resolveTokens palettes [] tokens source = (.ok none, next)) {restarts : Nat} :
    resolvePasses palettes pattern tokens restarts 0 source =
      ⟨restarts, .error (.unsatisfied (.chords pattern)), next⟩ := by
  unfold resolvePasses
  rw [h]

end

/-! ## Counting draws -/

/-- A computation gives the same from a source as from one that counts, which counts up to so many
draws. -/
structure Counts {σ α : Type} (limit : Nat) (counted : Counted σ) (x : α × σ)
    (y : α × Counted σ) : Prop where
  result : y.1 = x.1
  source : y.2.source = x.2
  draws : y.2.draws ≤ counted.draws + limit

/-- A computation that draws nothing is within every limit. -/
theorem Counts.of_drawless {σ α : Type} {limit : Nat} (counted : Counted σ) (a : α) :
    Counts limit counted (a, counted.source) (a, counted) :=
  ⟨rfl, rfl, Nat.le_add_right _ _⟩

/-- What the counting run returns, the plain one returns too. -/
theorem Counts.of_eq {σ α : Type} {limit : Nat} {counted next : Counted σ} {x : α × σ}
    {y : α × Counted σ} {a : α} (h : Counts limit counted x y) (hy : y = (a, next)) :
    x = (a, next.source) ∧ next.draws ≤ counted.draws + limit := by
  subst hy
  exact ⟨Prod.ext h.result.symm h.source.symm, h.draws⟩

section
variable {σ : Type} [Source σ] {palettes : List Palette} {done : List ChordName} {isLast : Bool}

/-- There are no more draws than tries. -/
theorem counts_drawOutside (palette : Palette) (excluded : List ChordName) (tries : Nat)
    (counted : Counted σ) :
    Counts tries counted (drawOutside palette excluded tries counted.source)
      (drawOutside palette excluded tries counted) := by
  induction tries generalizing counted with
  | zero => exact .of_drawless counted none
  | succ tries ih =>
    obtain ⟨next, hpick, hsource, hdraws⟩ : ∃ next,
        Source.pick counted palette.names palette.nonempty =
          ((Source.pick counted.source palette.names palette.nonempty).1, next) ∧
        next.source = (Source.pick counted.source palette.names palette.nonempty).2 ∧
        next.draws = counted.draws + 1 := ⟨_, rfl, rfl, rfl⟩
    simp only [drawOutside, hpick, ← hsource]
    split
    · obtain ⟨hresult, hstop, hle⟩ := ih next
      exact ⟨hresult, hstop, by omega⟩
    · exact ⟨rfl, rfl, by dsimp only; omega⟩

/-- The source is asked for a draw only. -/
theorem counts_resolveReference {limit : Nat} {token : ChordToken}
    (hlimit : token.IsDraw → 1000 ≤ limit) (counted : Counted σ) :
    Counts limit counted
      (resolveReference palettes done isLast token.reference counted.source)
      (resolveReference palettes done isLast token.reference counted) := by
  unfold resolveReference
  split
  · exact .of_drawless counted _
  · rename_i c rest hmark hreference
    split
    · exact .of_drawless counted _
    · rename_i hletter
      have hdraw : token.IsDraw := by
        rw [ChordToken.IsDraw, hreference]
        exact ⟨fun h => hmark (Option.some.inj h), Bool.eq_false_iff.2 hletter⟩
      split
      · exact .of_drawless counted _
      · rename_i palette excluded _
        obtain ⟨hresult, hstop, hle⟩ := counts_drawOutside palette excluded drawLimit counted
        have hle' : drawLimit ≤ limit := hlimit hdraw
        exact ⟨congrArg Except.ok hresult, hstop, by dsimp only; omega⟩
  · exact .of_drawless counted _

/-- A pass makes at most a thousand draws for each token that is drawn. -/
theorem counts_resolveTokens (palettes : List Palette) (done : List ChordName)
    (tokens : List ChordToken) (counted : Counted σ) :
    Counts (1000 * tokens.countP (·.IsDraw)) counted
      (resolveTokens palettes done tokens counted.source)
      (resolveTokens palettes done tokens counted) := by
  induction tokens generalizing done counted with
  | nil => exact .of_drawless counted _
  | cons token rest ih =>
    have hcount : 1000 * (token :: rest).countP (·.IsDraw) =
        1000 * rest.countP (·.IsDraw) + 1000 * if token.IsDraw then 1 else 0 := by
      simp only [List.countP_cons, Nat.mul_add, decide_eq_true_eq]
    rw [hcount]
    have hfirst : Counts (1000 * if token.IsDraw then 1 else 0) counted
        (resolveReference palettes done rest.isEmpty token.reference counted.source)
        (resolveReference palettes done rest.isEmpty token.reference counted) :=
      counts_resolveReference (fun hdraw => by rw [if_pos hdraw]) counted
    unfold resolveTokens
    generalize resolveReference palettes done rest.isEmpty token.reference counted.source = x
      at hfirst ⊢
    generalize resolveReference palettes done rest.isEmpty token.reference counted = y
      at hfirst ⊢
    obtain ⟨result, source⟩ := x
    obtain ⟨result', next⟩ := y
    obtain ⟨hresult, hsource, hdraws⟩ := hfirst
    dsimp only at hresult hsource hdraws
    subst hresult hsource
    rcases result' with e | _ | name
    · exact ⟨rfl, rfl, by dsimp only; omega⟩
    · exact ⟨rfl, rfl, by dsimp only; omega⟩
    · obtain ⟨hrest, hstop, hle⟩ := ih (done ++ [name]) next
      exact ⟨by dsimp only; rw [hrest], hstop, by dsimp only; omega⟩

/-- Each of the passes makes at most a thousand draws for each token that is drawn. -/
theorem counts_resolvePasses (palettes : List Palette) (pattern : Text) (tokens : List ChordToken)
    (restarts left : Nat) (counted : Counted σ) :
    let plain := resolvePasses palettes pattern tokens restarts left counted.source
    let r := resolvePasses palettes pattern tokens restarts left counted
    Counts ((left + 1) * (1000 * tokens.countP (·.IsDraw))) counted (plain.result, plain.source)
      (r.result, r.source) := by
  have hpass (counted : Counted σ) := counts_resolveTokens palettes [] tokens counted
  generalize 1000 * tokens.countP (·.IsDraw) = limit at hpass
  have hle (left : Nat) : limit ≤ (left + 1) * limit := Nat.le_mul_of_pos_left _ (Nat.succ_pos _)
  fun_induction resolvePasses palettes pattern tokens restarts left counted with
  | case1 restarts left counted e next hy =>
    obtain ⟨hx, hdraws⟩ := (hpass counted).of_eq hy
    have hplain : resolvePasses palettes pattern tokens restarts left counted.source =
        ⟨restarts, .error e, next.source⟩ := resolvePasses_of_pass hx restarts left
    rw [hplain]
    exact ⟨rfl, rfl, Nat.le_trans hdraws (Nat.add_le_add_left (hle left) _)⟩
  | case2 restarts left counted resolved next hy =>
    obtain ⟨hx, hdraws⟩ := (hpass counted).of_eq hy
    have hplain : resolvePasses palettes pattern tokens restarts left counted.source =
        ⟨restarts, .ok resolved, next.source⟩ := resolvePasses_of_pass hx restarts left
    rw [hplain]
    exact ⟨rfl, rfl, Nat.le_trans hdraws (Nat.add_le_add_left (hle left) _)⟩
  | case3 restarts counted next hy =>
    obtain ⟨hx, hdraws⟩ := (hpass counted).of_eq hy
    rw [resolvePasses_of_last hx]
    exact ⟨rfl, rfl, Nat.le_trans hdraws (Nat.add_le_add_left (hle 0) _)⟩
  | case4 restarts counted next left hy ih =>
    obtain ⟨hx, hdraws⟩ := (hpass counted).of_eq hy
    obtain ⟨hresult, hsource, hrest⟩ := ih
    rw [resolvePasses_of_discarded hx]
    refine ⟨hresult, hsource, Nat.le_trans hrest ?_⟩
    have hcount : (left + 1 + 1) * limit = (left + 1) * limit + limit := Nat.succ_mul _ _
    dsimp only [Nat.succ_eq_add_one]
    omega

end

/-! ## Both passes -/

/-- Resolving tokens in range draws at most two thousand names for each drawn token, fails exactly
if two passes in a row are exhausted, and otherwise gives what the first pass that finishes does. -/
theorem resolve_gives_up_iff {σ : Type} [Source σ] {palettes : List Palette} {p : ChordPattern}
    {tokens : List ChordToken} (htokens : p.tokens = .ok tokens)
    (hrange : ∀ (position : Nat) token, tokens[position]? = some token →
      InRange palettes position token.reference) (source : σ) :
    let r := resolve palettes p source
    let counted := resolve palettes p (Counted.mk source 0)
    (counted.result = r.result ∧ counted.source.source = r.source ∧
        counted.source.draws ≤ 2 * 1000 * tokens.countP (·.IsDraw)) ∧
      (∀ e, r.result = .error e ↔ e = .unsatisfied (.chords p.text) ∧
        ∃ middle stop, Exhausts palettes [] tokens source middle ∧
          Exhausts palettes [] tokens middle stop) ∧
      ∀ resolved, r.result = .ok resolved ↔
        (∃ stop, Finishes palettes [] tokens source resolved stop) ∨
          ∃ middle stop, Exhausts palettes [] tokens source middle ∧
            Finishes palettes [] tokens middle resolved stop := by
  intro r counted
  have hin : ∀ (k : Nat) token, tokens[k]? = some token →
      InRange palettes (([] : List ChordName).length + k) token.reference := by
    intro k token htoken
    rw [List.length_nil, Nat.zero_add]
    exact hrange k token htoken
  have hr : r = resolvePasses palettes p.text tokens 0 1 source :=
    resolve_eq_resolvePasses htokens source
  have hcounted : counted = resolvePasses palettes p.text tokens 0 1 ⟨source, 0⟩ :=
    resolve_eq_resolvePasses htokens _
  obtain ⟨hresult, hsource, hdraws⟩ :=
    counts_resolvePasses palettes p.text tokens 0 1 (Counted.mk source 0)
  rw [hr, hcounted]
  refine ⟨⟨hresult, hsource, by dsimp only at hdraws; omega⟩, ?_⟩
  simp only [← resolveTokens_eq_none_iff hin, ← resolveTokens_eq_some_iff hin]
  obtain ⟨resolved, stop, hfirst⟩ | ⟨middle, hfirst⟩ := finishes_or_exhausts hin source
  · have hfirst := resolveTokens_of_finishes hfirst
    rw [resolvePasses_of_pass (r := .ok resolved) hfirst]
    simp [hfirst]
  have hfirst := resolveTokens_of_exhausts hfirst
  rw [resolvePasses_of_discarded hfirst]
  obtain ⟨resolved, stop, hsecond⟩ | ⟨stop, hsecond⟩ := finishes_or_exhausts hin middle
  · have hsecond := resolveTokens_of_finishes hsecond
    rw [resolvePasses_of_pass (r := .ok resolved) hsecond]
    simp [hfirst, hsecond]
  · have hsecond := resolveTokens_of_exhausts hsecond
    rw [resolvePasses_of_last hsecond]
    simp [hfirst, hsecond, eq_comm]

/-- A palette has nothing but the chord before, so that both passes draw as often as they may. -/
theorem resolve_gives_up_single :
    let p : ChordPattern := ⟨"C/1,0/1".toList, none, none, by decide⟩
    let palettes : List Palette := [⟨[⟨['C'], by decide⟩], by simp⟩]
    let tokens : List ChordToken := [⟨false, ['C'], ['1'], 1⟩, ⟨false, ['0'], ['1'], 1⟩]
    let source : List Nat := []
    p.tokens = .ok tokens ∧
      (∀ (position : Nat) token, tokens[position]? = some token →
        InRange palettes position token.reference) ∧
      (resolve palettes p source).result = .error (.unsatisfied (.chords p.text)) ∧
      (resolve palettes p (Counted.mk source 0)).source.draws = 2 * 1000 ∧
      ∃ middle stop, Exhausts palettes [] tokens source middle ∧
        Exhausts palettes [] tokens middle stop := by
  intro p palettes tokens source
  have htokens : p.tokens = .ok tokens := by decide +kernel
  have hrange : ∀ (position : Nat) token, tokens[position]? = some token →
      InRange palettes position token.reference := by
    intro position token htoken
    match position with
    | 0 =>
      cases htoken
      have hread : ChordName.read ['C'] = .ok ⟨['C'], by decide⟩ := rfl
      exact .literal (by decide) hread
    | 1 =>
      cases htoken
      have htext : PaletteText (['0'] ++ []) ['0'] none := .plain (by decide) (by decide) (.inl rfl)
      have hread : Integer.readNat ['0'] = .ok 0 := by decide +kernel
      exact .palette (by decide) htext hread rfl nofun
    | position + 2 => cases htoken
  have hresult : (resolve palettes p source).result = .error (.unsatisfied (.chords p.text)) := by
    decide +kernel
  have hdraws : (resolve palettes p (Counted.mk source 0)).source.draws = 2 * 1000 := by
    decide +kernel
  obtain ⟨-, herror, -⟩ := resolve_gives_up_iff htokens hrange source
  exact ⟨htokens, hrange, hresult, hdraws, ((herror _).1 hresult).2⟩

end Resolution

end Songsmith
