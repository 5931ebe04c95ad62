import Songsmith.Proofs.Harmony.Rendering
import Songsmith.Proofs.Number.Limits

/-!
# How rendering a harmony fails

A rendering gives a timeline, or it fails in one of the ways that its language has: a text is
malformed, a reference leads to nothing, or the draws of the last pass run out of tries. There is
one way more. The number of a reference is any run of numerals, and an integer is read from at most
`Integer.digitLimit` decimal digits, so that a pass gets stuck at a reference whose number cannot be
read (`Resolution.Stuck`). `HarmonyEngine.renderFrom_fails_iff` says that a rendering fails in this
way exactly if a pass that it makes gets stuck, and in no other.
-/

namespace Songsmith

namespace Resolution

/-- The references whose numbers cannot be read: the position of a backreference, the number of a
palette, or the position that a reference to a palette excludes. -/
inductive Unreadable (palettes : List Palette) : Text → Invalid → Prop
  | back {digits : Text} {cause : Invalid} : Text.isNumeralText digits = true →
      Numeral.Unreadable digits cause → Unreadable palettes ('$' :: digits) cause
  | palette {reference number : Text} {exclusion : Option Text} {cause : Invalid} :
      reference.head?.any Text.isLetter = false → PaletteText reference number exclusion →
      Numeral.Unreadable number cause → Unreadable palettes reference cause
  | exclusion {reference number digits : Text} {index : Nat} {palette : Palette}
      {cause : Invalid} : reference.head?.any Text.isLetter = false →
      PaletteText reference number (some digits) → Integer.readNat number = .ok index →
      palettes[index]? = some palette → Numeral.Unreadable digits cause →
      Unreadable palettes reference cause

section
variable {σ : Type} [Source σ] (palettes : List Palette)

/-- A pass over tokens, after those already resolved, comes to a reference whose number cannot be
read. -/
inductive Stuck : List ChordName → List ChordToken → σ → Invalid → Prop
  | here {resolved : List ChordName} {token : ChordToken} {rest : List ChordToken} {source : σ}
      {cause : Invalid} : Unreadable palettes token.reference cause →
      Stuck resolved (token :: rest) source cause
  | later {resolved : List ChordName} {token : ChordToken} {rest : List ChordToken}
      {source source' : σ} {name : ChordName} {cause : Invalid} :
      resolveReference palettes resolved rest.isEmpty token.reference source =
        (.ok (some name), source') →
      Stuck (resolved ++ [name]) rest source' cause → Stuck resolved (token :: rest) source cause

/-- The first pass gets stuck, or it is discarded and one of as many as are left does. -/
inductive StuckWithin (tokens : List ChordToken) : Nat → σ → Invalid → Prop
  | first {left : Nat} {source : σ} {cause : Invalid} : Stuck palettes [] tokens source cause →
      StuckWithin tokens left source cause
  | again {left : Nat} {source source' : σ} {cause : Invalid} :
      resolveTokens palettes [] tokens source = (.ok none, source') →
      StuckWithin tokens left source' cause → StuckWithin tokens (left + 1) source cause

end

/-- The errors that the language of chord patterns has: a text is malformed, a reference leads to
nothing, or the last pass is discarded too. -/
inductive Expected (pattern : Text) : Error → Prop
  | malformed (cause : Malformed) : Expected pattern (.malformed cause)
  | dangling (cause : Dangling) : Expected pattern (.dangling cause)
  | exhausted : Expected pattern (.unsatisfied (.chords pattern))

/-- A number that cannot be read is none of the errors of the language. -/
theorem not_expected (pattern : Text) (cause : Invalid) : ¬ Expected pattern (.invalid cause) := by
  intro h
  cases h

/-- An error of the language of chord patterns, or a number of which `P` says that it cannot be
read. -/
abbrev Fails (pattern : Text) (P : Invalid → Prop) : Error → Prop :=
  Outcome.OrInvalid (Expected pattern) P

section
variable {σ : Type} [Source σ] {palettes : List Palette} {resolved : List ChordName}
  {isLast : Bool} {reference pattern : Text} {cause : Invalid}

/-! ## References -/

/-- Reading a numeral fails only where it cannot be read. -/
theorem fails_readNat {digits : Text} (h : Text.isNumeralText digits = true) (pattern : Text) :
    Outcome.FailsWith (Fails pattern (Numeral.Unreadable digits)) (Integer.readNat digits) :=
  (Integer.fails_read (Numeral.whole_of_isNumeralText h)).map

/-- A numeral that cannot be read fails with its cause. -/
theorem readNat_of_unreadable {digits : Text} (h : Text.isNumeralText digits = true)
    (hcause : Numeral.Unreadable digits cause) :
    Integer.readNat digits = .error (.invalid cause) := by
  rw [Integer.readNat, Integer.read_of_unreadable (Numeral.whole_of_isNumeralText h) hcause]
  rfl

/-- A line break at the end is the only one that is taken off. -/
theorem withoutLineBreak_append {body lineEnd : Text} (h : lineEnd = [] ∨ lineEnd = ['\n'])
    (hbody : body.getLast? ≠ some '\n') : withoutLineBreak (body ++ lineEnd) = body := by
  rcases h with rfl | rfl
  · rw [List.append_nil, withoutLineBreak, if_neg hbody]
  · rw [withoutLineBreak, if_pos List.getLast?_concat, List.dropLast_concat]

/-- Digits do not end in a line break. -/
theorem getLast?_ne_lineBreak {digits : Text} (h : digits.all Text.isDecimalDigit = true) :
    digits.getLast? ≠ some '\n' := by
  intro hlast
  exact absurd (List.all_eq_true.1 h _ (List.mem_of_getLast? hlast)) (by decide)

/-- The digits of a palette reference are found in it. -/
theorem paletteDigits?_of_paletteText {number : Text} {exclusion : Option Text}
    (h : PaletteText reference number exclusion) :
    paletteDigits? reference = some (number, exclusion) := by
  cases h with
  | plain hne hnumber hend =>
    have htake := List.takeWhile_eq_self_iff.2 (List.all_eq_true.1 hnumber)
    have hdrop := List.dropWhile_eq_nil_iff.2 (List.all_eq_true.1 hnumber)
    rw [paletteDigits?, withoutLineBreak_append hend (getLast?_ne_lineBreak hnumber)]
    simp only [htake, hdrop]
    obtain ⟨c, rest, rfl⟩ := List.exists_cons_of_ne_nil hne
    rfl
  | @excluding number digits lineEnd hne hnumber hne' hdigits hend =>
    have hmark : ∀ c, ('!' :: digits).head? = some c → Text.isDecimalDigit c = false := by
      rintro _ ⟨⟩
      decide
    have hlast : (number ++ '!' :: digits).getLast? ≠ some '\n' := by
      rw [List.getLast?_append_of_ne_nil _ (List.cons_ne_nil _ _), List.getLast?_cons,
        List.getLast?_eq_some_getLast hne']
      simpa [List.getLast?_eq_some_getLast hne'] using getLast?_ne_lineBreak hdigits
    rw [paletteDigits?, withoutLineBreak_append hend hlast]
    simp only [Text.takeWhile_append (List.all_eq_true.1 hnumber) hmark,
      Text.dropWhile_append (List.all_eq_true.1 hnumber) hmark]
    obtain ⟨c, rest, rfl⟩ := List.exists_cons_of_ne_nil hne
    obtain ⟨d, digits, rfl⟩ := List.exists_cons_of_ne_nil hne'
    exact if_pos hdigits

/-- Decimal digits are a numeral, if there are any. -/
theorem isNumeralText_of_all {digits : Text} (hne : digits ≠ [])
    (h : digits.all Text.isDecimalDigit = true) : Text.isNumeralText digits = true :=
  Text.isNumeralText_of_isDecimalDigit hne (List.all_eq_true.1 h)

/-- The numbers of a palette reference are numerals. -/
theorem PaletteText.isNumeralText {number : Text} {exclusion : Option Text}
    (h : PaletteText reference number exclusion) :
    Text.isNumeralText number = true ∧ ∀ digits ∈ exclusion, Text.isNumeralText digits = true := by
  cases h with
  | plain hne hnumber => exact ⟨isNumeralText_of_all hne hnumber, nofun⟩
  | excluding hne hnumber hne' hdigits =>
    refine ⟨isNumeralText_of_all hne hnumber, ?_⟩
    rintro _ ⟨⟩
    exact isNumeralText_of_all hne' hdigits

/-- A backreference fails as the language says, or because its position cannot be read. -/
theorem fails_backName (digits : Text) :
    Outcome.FailsWith (Fails pattern (Unreadable palettes ('$' :: digits)))
      (backName resolved reference digits) := by
  refine Outcome.FailsWith.bind ?_ fun index _ => ?_
  · unfold backPosition
    split
    · rename_i hnumeral
      exact (fails_readNat hnumeral pattern).imp fun cause h => .back hnumeral h
    · exact .error (.expected (.malformed _))
  · split
    · exact .ok _
    · exact .error (.expected (.dangling _))

/-- An excluded position fails as the language says, or because it cannot be read. -/
theorem fails_excludedName {exclusion : Option Text}
    (h : ∀ digits ∈ exclusion, Text.isNumeralText digits = true) :
    Outcome.FailsWith
      (Fails pattern fun cause => ∃ digits ∈ exclusion, Numeral.Unreadable digits cause)
      (excludedName resolved reference exclusion) := by
  cases exclusion with
  | none => exact .ok _
  | some digits =>
    refine Outcome.FailsWith.bind ?_ fun index _ => ?_
    · exact (fails_readNat (h digits rfl) pattern).imp fun cause h => ⟨digits, rfl, h⟩
    · split
      · exact .ok _
      · exact .error (.expected (.dangling _))

/-- A reference to a palette fails as the language says, or at a number of it that cannot be read.
-/
theorem fails_drawRule (palettes : List Palette) (resolved : List ChordName) (isLast : Bool)
    (pattern : Text) (hletter : reference.head?.any Text.isLetter = false) :
    Outcome.FailsWith (Fails pattern (Unreadable palettes reference))
      (drawRule palettes resolved isLast reference) := by
  unfold drawRule
  split
  · exact .error (.expected (.malformed _))
  · rename_i number exclusion hdigits
    have htext := paletteText_of_digits hdigits
    obtain ⟨hnumber, hexclusion⟩ := htext.isNumeralText
    refine Outcome.FailsWith.bind ?_ fun index hindex => ?_
    · exact (fails_readNat hnumber pattern).imp fun cause h => .palette hletter htext h
    · split
      · exact .error (.expected (.dangling _))
      · rename_i palette hpalette
        refine Outcome.FailsWith.bind ?_ fun excluded _ => .ok _
        refine (fails_excludedName hexclusion).imp ?_
        rintro cause ⟨digits, rfl, hcause⟩
        exact .exclusion hletter htext hindex hpalette hcause

/-- A reference fails as the language says, or at a number of it that cannot be read. -/
theorem fails_resolveReference (palettes : List Palette) (resolved : List ChordName)
    (isLast : Bool) (reference pattern : Text) (source : σ) :
    Outcome.FailsWith (Fails pattern (Unreadable palettes reference))
      (resolveReference palettes resolved isLast reference source).1 := by
  unfold resolveReference
  split
  · exact (fails_backName _).map
  · rename_i c rest _
    split
    · refine Outcome.FailsWith.map ?_
      unfold ChordName.read
      split
      · exact .ok _
      · exact .error (.expected (.malformed _))
    · rename_i hletter
      have hother : (c :: rest).head?.any Text.isLetter = false := Bool.eq_false_iff.2 hletter
      have hrule := fails_drawRule palettes resolved isLast pattern hother
      split
      · rename_i e he
        exact .error (hrule e he)
      · exact .ok _
  · exact .error (.expected (.malformed _))

/-- The number of a palette is read before anything else. -/
theorem drawRule_of_palette {number : Text} {exclusion : Option Text} {e : Error}
    (h : PaletteText reference number exclusion) (hnumber : Integer.readNat number = .error e) :
    drawRule palettes resolved isLast reference = .error e := by
  rw [drawRule, paletteDigits?_of_paletteText h]
  exact Outcome.bind_eq_error_iff.2 (.inl hnumber)

/-- An excluded position is read once the palette is found. -/
theorem drawRule_of_exclusion {number digits : Text} {index : Nat} {palette : Palette} {e : Error}
    (h : PaletteText reference number (some digits)) (hnumber : Integer.readNat number = .ok index)
    (hpalette : palettes[index]? = some palette) (hdigits : Integer.readNat digits = .error e) :
    drawRule palettes resolved isLast reference = .error e := by
  rw [drawRule, paletteDigits?_of_paletteText h]
  refine Outcome.bind_eq_error_iff.2 (.inr ⟨index, hnumber, ?_⟩)
  rw [hpalette]
  exact Outcome.bind_eq_error_iff.2 (.inl (Outcome.bind_eq_error_iff.2 (.inl hdigits)))

/-- The first character of a palette reference is a digit, and so no mark. -/
theorem PaletteText.exists_cons {number : Text} {exclusion : Option Text}
    (h : PaletteText reference number exclusion) :
    ∃ c rest, reference = c :: rest ∧ c ≠ '$' := by
  have hhead : ∃ c rest, reference = c :: rest ∧ Text.isDecimalDigit c = true := by
    cases h with
    | plain hne hnumber | excluding hne hnumber =>
      obtain ⟨c, rest, rfl⟩ := List.exists_cons_of_ne_nil hne
      exact ⟨c, _, rfl, List.all_eq_true.1 hnumber c List.mem_cons_self⟩
  obtain ⟨c, rest, hreference, hdigit⟩ := hhead
  refine ⟨c, rest, hreference, ?_⟩
  rintro rfl
  exact absurd hdigit (by decide)

/-- A palette reference fails as its draw does, before the source is used. -/
theorem resolveReference_of_paletteText {number : Text} {exclusion : Option Text} {e : Error}
    (h : PaletteText reference number exclusion)
    (hletter : reference.head?.any Text.isLetter = false)
    (hrule : drawRule palettes resolved isLast reference = .error e) (source : σ) :
    resolveReference palettes resolved isLast reference source = (.error e, source) := by
  obtain ⟨c, rest, rfl, hmark⟩ := h.exists_cons
  exact resolveReference_of_drawRule hmark hletter hrule source

/-- A reference whose number cannot be read fails with just that. -/
theorem resolveReference_of_unreadable (h : Unreadable palettes reference cause)
    (resolved : List ChordName) (isLast : Bool) (source : σ) :
    resolveReference palettes resolved isLast reference source =
      (.error (.invalid cause), source) := by
  cases h with
  | back hnumeral hcause =>
    have hread := readNat_of_unreadable hnumeral hcause
    rename_i digits
    have hback : backName resolved ('$' :: digits) digits = .error (.invalid cause) :=
      Outcome.bind_eq_error_iff.2 (.inl ((if_pos hnumeral).trans hread))
    rw [resolveReference, hback]
    rfl
  | palette hletter htext hcause =>
    have hread := readNat_of_unreadable htext.isNumeralText.1 hcause
    exact resolveReference_of_paletteText htext hletter (drawRule_of_palette htext hread) source
  | exclusion hletter htext hnumber hpalette hcause =>
    have hread := readNat_of_unreadable (htext.isNumeralText.2 _ rfl) hcause
    exact resolveReference_of_paletteText htext hletter
      (drawRule_of_exclusion htext hnumber hpalette hread) source

/-! ## Passes -/

/-- A pass fails as the language says, or by getting stuck at a number. -/
theorem fails_resolveTokens (palettes : List Palette) (resolved : List ChordName)
    (tokens : List ChordToken) (pattern : Text) (source : σ) :
    Outcome.FailsWith (Fails pattern (Stuck palettes resolved tokens source))
      (resolveTokens palettes resolved tokens source).1 := by
  induction tokens generalizing resolved source with
  | nil => exact .ok _
  | cons token rest ih =>
    have hreference :=
      fails_resolveReference palettes resolved rest.isEmpty token.reference pattern source
    cases hname : resolveReference palettes resolved rest.isEmpty token.reference source with
    | mk result source' =>
      rw [hname] at hreference
      rw [resolveTokens, hname]
      match result with
      | .error e =>
        exact (Outcome.FailsWith.error (hreference e rfl)).imp fun cause h => .here h
      | .ok none => exact .ok _
      | .ok (some name) =>
        exact (ih (resolved ++ [name]) source').map.imp fun cause h => .later hname h

/-- A pass that gets stuck fails there. -/
theorem resolveTokens_of_stuck {tokens : List ChordToken} {source : σ}
    (h : Stuck palettes resolved tokens source cause) :
    (resolveTokens palettes resolved tokens source).1 = .error (.invalid cause) := by
  induction h with
  | here h => rw [resolveTokens, resolveReference_of_unreadable h]
  | later hname _ ih =>
    rw [resolveTokens, hname]
    simp only [ih]
    rfl

/-- Passes fail as the language says, or because one of them gets stuck at a number. -/
theorem fails_resolvePasses (palettes : List Palette) (pattern : Text) (tokens : List ChordToken)
    (restarts left : Nat) (source : σ) :
    Outcome.FailsWith (Fails pattern (StuckWithin palettes tokens left source))
      (resolvePasses palettes pattern tokens restarts left source).result := by
  fun_induction resolvePasses palettes pattern tokens restarts left source with
  | case1 restarts left source e next hpass =>
    have hfails := fails_resolveTokens palettes [] tokens pattern source
    rw [hpass] at hfails
    exact (Outcome.FailsWith.error (hfails e rfl)).imp fun cause h => .first h
  | case2 => exact .ok _
  | case3 => exact .error (.expected .exhausted)
  | case4 restarts source left next hpass ih =>
    exact ih.imp fun cause h => .again hpass h

/-- If one of the passes gets stuck, this is how they end. -/
theorem resolvePasses_of_stuck {tokens : List ChordToken} {left : Nat} {source : σ}
    (h : StuckWithin palettes tokens left source cause) (pattern : Text) (restarts : Nat) :
    (resolvePasses palettes pattern tokens restarts left source).result =
      .error (.invalid cause) := by
  induction h generalizing restarts with
  | @first left source _ hstuck =>
    obtain ⟨next, hpass⟩ : ∃ next, resolveTokens palettes [] tokens source =
        (.error (.invalid _), next) := ⟨_, Prod.ext (resolveTokens_of_stuck hstuck) rfl⟩
    unfold resolvePasses
    rw [hpass]
  | again hpass _ ih =>
    unfold resolvePasses
    rw [hpass]
    exact ih (restarts + 1)

/-! ## Renderings -/

/-- Cutting a pattern into tokens fails as the language says. -/
theorem fails_tokens (p : ChordPattern) (pattern : Text) :
    Outcome.FailsWith (Fails pattern fun _ => False) p.tokens := by
  intro e he
  obtain ⟨before, token, after, tokens, -, -, he⟩ := Outcome.mapM_eq_error_iff.1 he
  unfold ChordToken.read at he
  simp only at he
  split at he
  · split at he
    · cases he
    · cases he
      exact .expected (.malformed _)
  · cases he
    exact .expected (.malformed _)

/-- What a resolved pattern is stamped to is a timeline, or one of its lengths is malformed. -/
theorem fails_timeline (settings : Stamping.Settings) (ticks : Nat) {tokens : List ResolvedToken}
    (hne : tokens ≠ []) (pattern : Text) :
    Outcome.FailsWith (Fails pattern fun _ => False) (Stamping.timeline settings ticks tokens) := by
  obtain ⟨first, rest, rfl⟩ := List.exists_cons_of_ne_nil hne
  cases hstamps : Stamping.stamps settings ticks (first :: rest) with
  | error e =>
    obtain ⟨-, cause, hcause⟩ := Stamping.unplayable_of_error hstamps
    rw [hcause]
    exact .error (.expected (.malformed cause))
  | ok items =>
    obtain ⟨t, ht, -⟩ := Stamping.timeline_of_stamps hstamps
    rw [ht]
    exact .ok t

end

end Resolution

namespace HarmonyEngine

variable {σ : Type} [Source σ]

/-- A pass over the pattern that is drawn gets stuck at a reference whose number cannot be read. -/
def Stuck (engine : HarmonyEngine) (source : σ) (cause : Invalid) : Prop :=
  let drawn := Source.pick source engine.patterns engine.nonempty
  ∃ tokens, drawn.1.tokens = .ok tokens ∧
    Resolution.StuckWithin engine.palettes tokens Resolution.restartLimit drawn.2 cause

/-- A render fails as the language says, or by getting stuck at a number. -/
theorem fails_renderFrom (engine : HarmonyEngine) (song : Structure) (source : σ) :
    Outcome.FailsWith
      (Resolution.Fails (Source.pick source engine.patterns engine.nonempty).1.text
        (engine.Stuck source))
      (engine.renderFrom song source).result := by
  rw [result_renderFrom]
  refine Outcome.FailsWith.bind ?_ fun tokens htokens => ?_
  · unfold Resolution.resolve
    split
    · rename_i e he
      exact (Outcome.FailsWith.error (Resolution.fails_tokens _ _ e he)).of_false
    · rename_i tokens htokens
      exact (Resolution.fails_resolvePasses _ _ tokens _ _ _).imp fun cause h =>
        ⟨tokens, htokens, h⟩
  · exact (Resolution.fails_timeline _ _ (Resolution.ne_nil_of_resolve htokens) _).of_false

/-- If the resolution gets stuck, this is how the render ends. -/
theorem renderFrom_of_stuck {engine : HarmonyEngine} {source : σ} {cause : Invalid}
    (h : engine.Stuck source cause) (song : Structure) :
    (engine.renderFrom song source).result = .error (.invalid cause) := by
  obtain ⟨tokens, htokens, h⟩ := h
  rw [result_renderFrom, Resolution.resolve_eq_resolvePasses htokens]
  exact Outcome.bind_eq_error_iff.2 (.inl (Resolution.resolvePasses_of_stuck h _ _))

/-- A rendering gives a timeline, or fails in one of the ways of its language, unless a pass gets
stuck at a number that cannot be read; then that is the error. -/
theorem renderFrom_fails_iff (engine : HarmonyEngine) (song : Structure) (source : σ) :
    (∀ cause, (engine.renderFrom song source).result = .error (.invalid cause) ↔
        engine.Stuck source cause) ∧
      ((¬ ∃ cause, engine.Stuck source cause) ↔
        (∃ t, (engine.renderFrom song source).result = .ok t) ∨
          ∃ e, (engine.renderFrom song source).result = .error e ∧
            Resolution.Expected (Source.pick source engine.patterns engine.nonempty).1.text e) :=
  (fails_renderFrom engine song source).eq_invalid_iff (Resolution.not_expected _)
    fun _ hstuck => renderFrom_of_stuck hstuck song

/-- A superscript is a numeral, and so it is taken for the position of a backreference, which cannot
be read. -/
theorem render_superscript :
    ∃ engine song, ofParts [.text "C/1,$²/1".toList] [] true Chord.defaultCrossover = .ok engine ∧
      Structure.ofTicks 8 4 127 = .ok song ∧
      (engine.render song 0).result = .error (.invalid (.integerText ['²'])) ∧
      ¬ ((∃ t, (engine.render song 0).result = .ok t) ∨ ∃ pattern e,
        (engine.render song 0).result = .error e ∧ Resolution.Expected pattern e) := by
  let p : ChordPattern := ⟨"C/1,$²/1".toList, none, none, by decide⟩
  let engine : HarmonyEngine := ⟨[p], [], true, Chord.defaultCrossover, List.cons_ne_nil _ _⟩
  let song : Structure := ⟨8, 4, 127, by decide, by decide, by decide⟩
  have htokens : p.tokens = .ok [⟨false, ['C'], ['1'], 1⟩, ⟨false, ['$', '²'], ['1'], 1⟩] := by
    decide +kernel
  have hpass : ∀ source : Twister, Resolution.Stuck [] []
      [⟨false, ['C'], ['1'], 1⟩, ⟨false, ['$', '²'], ['1'], 1⟩] source (.integerText ['²']) := by
    intro source
    have hletter : Text.isLetter 'C' = true := by decide
    exact .later (Resolution.resolveReference_of_letter hletter source)
      (.here (.back (by decide) (.noDigit (by decide) ⟨'²', by decide, by decide⟩)))
  have hstuck : engine.Stuck (Twister.ofSeed 0) (.integerText ['²']) :=
    ⟨_, by rw [Source.pick_singleton _ (x := p) rfl]; exact htokens, .first (hpass _)⟩
  have hresult : (engine.render song 0).result = .error (.invalid (.integerText ['²'])) :=
    renderFrom_of_stuck hstuck song
  refine ⟨engine, song, rfl, rfl, hresult, ?_⟩
  rw [hresult]
  rintro (⟨t, ⟨⟩⟩ | ⟨pattern, e, ⟨⟩, h⟩)
  exact Resolution.not_expected pattern _ h

end HarmonyEngine

end Songsmith
