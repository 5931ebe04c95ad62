import Songsmith.Harmony.Engine
import Songsmith.Proofs.Chord.Names
import Songsmith.Proofs.Harmony.Resolution
import Songsmith.Proofs.Harmony.Stamping

/-!
# Renderings

An engine draws one of its patterns, resolves it and stamps it: what it reports on the way leaves
the result alone (`HarmonyEngine.result_renderFrom`). A timeline that comes out of that consists of
chord runs of one rendering (`Stamping.RenderedRuns`): they fill the song, neighbours have different
harmonies, and every chord is that of a name, voiced as the settings say and, where they ask for it,
near the chord of the first name, which is the one that the first run has.
-/

namespace Songsmith

/-- From a list of one element only that one can be drawn. -/
theorem Source.pick_singleton {σ α : Type} [Source σ] (source : σ) {xs : List α} {x : α}
    (hxs : xs = [x]) (nonempty : xs ≠ []) : (pick source xs nonempty).1 = x := by
  have hmem := pick_mem source xs nonempty
  generalize (pick source xs nonempty).1 = y at hmem ⊢
  rwa [hxs, List.mem_singleton] at hmem

namespace Resolution

/-! ## References

What a reference is resolved to depends on its first character: a mark takes a name from those
before, a letter begins a literal, and anything else is a draw or nothing. -/

section
variable {palettes : List Palette} {done : List ChordName} {isLast : Bool} {c : Char} {rest : Text}
  {σ : Type} [Source σ]

/-- What begins with a letter is read as a name, without a draw. -/
theorem resolveReference_of_letter (h : Text.isLetter c = true) (source : σ) :
    resolveReference palettes done isLast (c :: rest) source =
      ((ChordName.read (c :: rest)).map some, source) := by
  have hmark : c ≠ '$' := by
    rintro rfl
    cases h
  -- By `hmark` the first arm does not match.
  simp [resolveReference, h]

/-- Nothing is drawn for what does not refer to a palette. -/
theorem resolveReference_of_drawRule {e : Error} (hmark : c ≠ '$')
    (hletter : Text.isLetter c = false)
    (h : drawRule palettes done isLast (c :: rest) = .error e) (source : σ) :
    resolveReference palettes done isLast (c :: rest) source = (.error e, source) := by
  simp [resolveReference, hletter, h]

end

/-! ## Passes -/

/-- Once a pattern is cut into tokens, it is resolved by passes over them. -/
theorem resolve_eq_resolvePasses {σ : Type} [Source σ] {palettes : List Palette} {p : ChordPattern}
    {tokens : List ChordToken} (h : p.tokens = .ok tokens) (source : σ) :
    resolve palettes p source = resolvePasses palettes p.text tokens 0 restartLimit source := by
  rw [resolve, h]

/-- The first pass that is not discarded is the last. -/
theorem resolvePasses_of_pass {σ : Type} [Source σ] {palettes : List Palette} {pattern : Text}
    {tokens : List ChordToken} {source next : σ} {r : Except Error (List ResolvedToken)}
    (h : resolveTokens palettes [] tokens source = (r.map some, next)) (restarts left : Nat) :
    resolvePasses palettes pattern tokens restarts left source = ⟨restarts, r, next⟩ := by
  unfold resolvePasses
  rw [h]
  cases r <;> rfl

/-- A pattern has tokens, and so has what it is resolved to. -/
theorem ne_nil_of_resolve {σ : Type} [Source σ] {palettes : List Palette} {p : ChordPattern}
    {source : σ} {resolved : List ResolvedToken}
    (h : (resolve palettes p source).result = .ok resolved) : resolved ≠ [] := by
  unfold resolve at h
  split at h
  · cases h
  · rename_i tokens htokens
    obtain ⟨start, stop, hpass⟩ := resolvePasses_inv h
    obtain ⟨haligned, -⟩ := resolveTokens_sound hpass
    rintro rfl
    exact ChordPattern.tokens_ne_nil htokens (List.forall₂_nil_right_iff.1 haligned)

end Resolution

/-- The result of a rendering is the timeline that is stamped of what the drawn pattern is resolved
to. -/
theorem HarmonyEngine.result_renderFrom {σ : Type} [Source σ] (engine : HarmonyEngine)
    (song : Structure) (source : σ) :
    let drawn := Source.pick source engine.patterns engine.nonempty
    (engine.renderFrom song source).result =
      (Resolution.resolve engine.palettes drawn.1 drawn.2).result >>=
        Stamping.timeline (engine.settings drawn.1 song) song.ticks := by
  intro drawn
  simp only [renderFrom, Traced.result_bind, Traced.result_ofExcept, Traced.result_pure]
  -- Reports have no result of their own.
  show (Resolution.resolve engine.palettes drawn.1 drawn.2).result >>= (fun tokens =>
    Stamping.timeline (engine.settings drawn.1 song) song.ticks tokens >>= pure) = _
  simp only [bind_pure]

/-- A timeline is rendered exactly if it is stamped of what the drawn pattern is resolved to, which
has a first token. -/
theorem HarmonyEngine.renderFrom_eq_ok_iff {σ : Type} [Source σ] {engine : HarmonyEngine}
    {song : Structure} {source : σ} {t : Timeline} :
    let drawn := Source.pick source engine.patterns engine.nonempty
    (engine.renderFrom song source).result = .ok t ↔
      ∃ first rest,
        (Resolution.resolve engine.palettes drawn.1 drawn.2).result = .ok (first :: rest) ∧
          Stamping.timeline (engine.settings drawn.1 song) song.ticks (first :: rest) = .ok t := by
  intro drawn
  rw [result_renderFrom, Outcome.bind_eq_ok_iff]
  constructor
  · rintro ⟨resolved, hresolve, htimeline⟩
    obtain ⟨first, rest, rfl⟩ := List.exists_cons_of_ne_nil (Resolution.ne_nil_of_resolve hresolve)
    exact ⟨first, rest, hresolve, htimeline⟩
  · rintro ⟨first, rest, hresolve, htimeline⟩
    exact ⟨_, hresolve, htimeline⟩

namespace Stamping

/-! ## The chords of one rendering -/

section
variable {settings settings' : Settings} {first first' name name' : ChordName}

/-- The chord of a name has the pitch class that the name says. -/
@[simp] theorem rootClass_chordOf : (chordOf settings first name).rootClass = name.parts.1 := by
  unfold chordOf
  split <;> rfl

/-- The chord of a name has the quality that the name says. -/
@[simp] theorem quality_chordOf : (chordOf settings first name).quality = name.parts.2 := by
  unfold chordOf
  split <;> rfl

/-- The chord of a name can be named again. -/
theorem named_chordOf : (chordOf settings first name).Named := by
  obtain ⟨hnonneg, hlt, hquality⟩ := name.named_voiced settings.crossover
  refine ⟨?_, ?_, ?_⟩
  · rwa [rootClass_chordOf]
  · rwa [rootClass_chordOf]
  · rwa [quality_chordOf]

/-- The chord of a name depends only on what the name and the first name say. -/
theorem chordOf_same_of_parts (hcrossover : settings'.crossover = settings.crossover)
    (hminimize : settings'.minimize = settings.minimize) (hfirst : first'.parts = first.parts)
    (hname : name'.parts = name.parts) :
    (chordOf settings' first' name').same (chordOf settings first name) = true := by
  have hvoiced {n m : ChordName} (h : n.parts = m.parts) :
      (n.voiced settings'.crossover).rootPitch = (m.voiced settings.crossover).rootPitch := by
    simp only [Chord.rootPitch, ChordName.voiced, h, hcrossover]
  refine Chord.same_iff.2 ⟨Chord.sameHarmony_iff.2 ?_, ?_⟩
  · simp [hname]
  · unfold chordOf
    simp only [hminimize]
    split
    · simp only [Chord.nearestTo, hvoiced hfirst, hvoiced hname]
      simp only [ChordName.voiced, hname, hcrossover]
    · simp only [ChordName.voiced, hname, hcrossover]

end

/-- Runs that fill a song, with the chords of one rendering in which the first name is given. -/
structure RenderedRuns (settings : Settings) (first : ChordName) (ticks : Nat) (runs : List Run) :
    Prop where
  pos : ∀ r ∈ runs, 0 < r.ticks
  changes : runs.IsChain fun r s => s.chord.sameHarmony r.chord = false
  total_eq : Cycle.total Run.ticks runs = ticks
  chord : ∀ r ∈ runs, ∃ name, r.chord = chordOf settings first name
  first : ∀ r ∈ runs.head?, r.chord = chordOf settings first first

/-- A song has at least one run. -/
theorem RenderedRuns.ne_nil {settings : Settings} {first : ChordName} {song : Structure}
    {runs : List Run} (h : RenderedRuns settings first song.ticks runs) : runs ≠ [] := by
  rintro rfl
  exact Nat.ne_of_lt song.ticks_pos h.total_eq

/-- The chords of a rendering can all be named. -/
theorem RenderedRuns.named {settings : Settings} {first : ChordName} {ticks : Nat}
    {runs : List Run} (h : RenderedRuns settings first ticks runs) {r : Run} (hr : r ∈ runs) :
    r.chord.Named := by
  obtain ⟨name, hname⟩ := h.chord r hr
  exact hname ▸ named_chordOf

/-- Laid one after another, the runs fill the song. -/
theorem RenderedRuns.tiles {settings : Settings} {first : ChordName} {ticks : Nat}
    {runs : List Run} (h : RenderedRuns settings first ticks runs) :
    Tiles 0 ticks (Cycle.layOnce Run.ticks 0 runs) := by
  have htiles := Cycle.tiles_layOnce 0 h.pos
  rwa [Nat.zero_add, h.total_eq] at htiles

section
variable {settings : Settings} {ticks : Nat} {first : ResolvedToken} {rest : List ResolvedToken}

/-- A timeline that can be made is that of stamps. -/
theorem exists_stamps_of_timeline {t : Timeline}
    (h : timeline settings ticks (first :: rest) = .ok t) :
    ∃ items, stamps settings ticks (first :: rest) = .ok items ∧
      t.slots.toList.map Slot.chord =
        (chordRuns (Cycle.lay Stamp.ticks items ticks)).flatMap Run.chords ∧
      t.slots.toList.map Slot.chordTicks =
        (chordRuns (Cycle.lay Stamp.ticks items ticks)).flatMap (fun r => countdown r.ticks) ∧
      t.slots.toList.map Slot.sectionTicks =
        (sectionLengths (Cycle.lay Stamp.ticks items ticks)).flatMap countdown := by
  obtain ⟨items, hitems, -⟩ := Outcome.bind_eq_ok_iff.1 h
  obtain ⟨t', ht', hcolumns⟩ := timeline_of_stamps hitems
  rw [h] at ht'
  cases ht'
  exact ⟨items, hitems, hcolumns⟩

/-- The joined runs of what is laid are those of a rendering. -/
theorem renderedRuns_of_stamps {items : List Stamp}
    (h : stamps settings ticks (first :: rest) = .ok items) :
    RenderedRuns settings first.name ticks (chordRuns (Cycle.lay Stamp.ticks items ticks)) := by
  have htiles := tiles_stamps h
  have hchord {r : Run} (hr : r ∈ occurrenceRuns (Cycle.lay Stamp.ticks items ticks)) :
      ∃ name, r.chord = chordOf settings first.name name := by
    obtain ⟨o, ho, rfl⟩ := List.mem_map.1 hr
    obtain ⟨k, hk⟩ := List.getElem?_of_mem ho
    obtain ⟨token, -, hof, -⟩ := exists_placed h hk
    exact ⟨token.name, hof.chord⟩
  refine ⟨Run.pos_of_mem_merge (pos_of_mem_occurrenceRuns htiles), Run.isChain_merge _,
    total_chordRuns htiles, fun r hr => ?_, fun r hr => ?_⟩
  · obtain ⟨r', hr', heq⟩ := Run.exists_chord_eq_of_mem_merge hr
    rw [← heq]
    exact hchord hr'
  · -- The first run begins with the first occurrence, which is that of the first token.
    cases hos : Cycle.lay Stamp.ticks items ticks with
    | nil =>
      rw [hos] at hr
      cases hr
    | cons o os =>
      rw [hos] at hr
      obtain ⟨token, htoken, hof, -⟩ := exists_placed h (k := 0) (o := o) (by rw [hos]; rfl)
      rw [Nat.zero_mod] at htoken
      cases htoken
      exact (Run.chord_of_head?_merge hr).trans hof.chord

end

end Stamping

/-- A timeline that is rendered consists of the runs of a rendering. -/
theorem HarmonyEngine.exists_renderedRuns {σ : Type} [Source σ] {engine : HarmonyEngine}
    {song : Structure} {source : σ} {t : Timeline}
    (h : (engine.renderFrom song source).result = .ok t) :
    let settings := engine.settings (Source.pick source engine.patterns engine.nonempty).1 song
    ∃ first runs, Stamping.RenderedRuns settings first song.ticks runs ∧
      t.slots.toList.map Slot.chord = runs.flatMap Run.chords ∧
      t.slots.toList.map Slot.chordTicks = runs.flatMap fun r => countdown r.ticks := by
  intro settings
  obtain ⟨first, rest, -, htimeline⟩ := renderFrom_eq_ok_iff.1 h
  obtain ⟨items, hitems, hchords, hcounters, -⟩ := Stamping.exists_stamps_of_timeline htimeline
  exact ⟨first.name, _, Stamping.renderedRuns_of_stamps hitems, hchords, hcounters⟩

end Songsmith
