import Songsmith.Proofs.Harmony.Rendering
import Songsmith.Proofs.Harmony.Walks
import Songsmith.Proofs.Number.Exact

/-!
# Dumped chords

The chord runs of a timeline are written as a chord pattern, one token for each run, its length in
beats of one tick. Rendered again under the settings of the rendering that the timeline came from,
that pattern gives the chords of the timeline (`HarmonyEngine.dump_faithful`), whatever else the
engine and the song have, and whatever is drawn:

* the name of a chord is read as its pitch class and quality (`DumpedAs`), and begins with a letter,
  so that it is resolved to itself (`Resolution.resolveTokens_reread`);
* the lengths fill the song, so that every token is laid once (`Cycle.lay_eq_layOnce`);
* neighbouring runs have different harmonies, so that none are joined (`Run.merge_eq_self`);
* the first run has the chord of the name that the others were voiced near, and a chord depends
  only on what the names say (`Stamping.chordOf_same_of_parts`).

The lengths have to be read as the numbers they were written from (`LengthKept`).
-/

namespace Songsmith

/-! ## Lengths -/

/-- As a number of beats of one tick each, the written length is that many ticks. -/
def LengthKept (n : Int) : Prop :=
  ∃ value, RealText.readFinite? (Integer.digits n) = some value ∧ Beats.ticks? value 1 = some n

/-- Lengths of at most 52 binary places are kept. -/
theorem lengthKept_of_lt {n : Nat} (hpos : 0 < n) (hlt : n < 2 ^ 52) : LengthKept n := by
  refine ⟨n, ?_, Beats.ticks?_natCast hpos hlt⟩
  rw [RealText.readFinite?_digits (by omega), Binary64.nearest?_natCast hpos hlt]

/-- The digits of a number can stand for a length. -/
theorem BeatLength.readable_digits {n : Nat} {value : Rat}
    (h : RealText.readFinite? (Integer.digits n) = some value) :
    BeatLength.Readable ⟨Integer.digits n, value⟩ where
  nonempty := Integer.digits_natCast_ne_nil n
  comma hmem := absurd (Integer.isDigit_of_mem_digits_natCast hmem) (by decide)
  slash hmem := absurd (Integer.isDigit_of_mem_digits_natCast hmem) (by decide)
  last _ hc := Text.isBlankChar_of_isDigit
    (Integer.isDigit_of_mem_digits_natCast (List.mem_of_getLast? hc))
  value := h

/-! ## Tokens of runs -/

/-- A run as it is dumped. -/
def Run.write (r : Run) : Text := Timeline.runText (some r.chord) r.ticks

/-- A token that is read as a literal where it is written: its name begins with a letter, and its
length can be read. -/
structure ResolvedToken.Literal (r : ResolvedToken) : Prop where
  letter : r.name.text.head?.any Text.isLetter = true
  tight : r.name.text.dropWhile Text.isBlankChar = r.name.text
  readable : r.beats.Readable

/-- The token is one that a run is dumped as: it has no mark, its name is that of the chord and
means that chord, and its length in beats of one tick is that of the run. -/
structure DumpedAs (r : Run) (token : ResolvedToken) : Prop where
  unmarked : token.startsSection = false
  text : token.name.text = r.chord.name
  parts : token.name.parts = (r.chord.rootClass, r.chord.quality)
  literal : token.Literal
  digits : token.beats.text = Integer.digits r.ticks
  ticks : Beats.ticks? token.beats.value 1 = some (r.ticks : Int)

/-- Every run of a named chord is dumped as some token, if its length is kept when it is written. -/
theorem exists_dumpedAs {r : Run} (hnamed : r.chord.Named) (hkept : LengthKept r.ticks) :
    ∃ token, DumpedAs r token := by
  obtain ⟨name, htext, hparts⟩ := hnamed.exists_name
  obtain ⟨value, hread, hticks⟩ := hkept
  have hspells := hnamed.spells
  rw [← htext] at hspells
  exact ⟨⟨false, name, ⟨_, value⟩⟩, rfl, htext, hparts,
    ⟨hspells.letter, hspells.tight, BeatLength.readable_digits hread⟩, rfl, hticks⟩

/-- The token is written as the run is. -/
theorem DumpedAs.write_eq {r : Run} {token : ResolvedToken} (h : DumpedAs r token) :
    token.write = r.write := by
  rw [ResolvedToken.write, h.unmarked, h.text, h.digits]
  rfl

/-- The tokens are written as the runs are, one by one. -/
theorem map_write_of_dumpedAs {runs : List Run} {tokens : List ResolvedToken}
    (h : List.Forall₂ DumpedAs runs tokens) :
    tokens.map ResolvedToken.write = runs.map Run.write := by
  induction h with
  | nil => rfl
  | cons hr _ ih => rw [List.map_cons, List.map_cons, hr.write_eq, ih]

/-! ## Resolving -/

namespace Resolution

section
variable {σ : Type} [Source σ] {palettes : List Palette} {resolved : List ResolvedToken}

/-- What begins with a letter is resolved to itself, without a draw. -/
theorem resolveReference_literal {done : List ChordName} {isLast : Bool} {name : ChordName}
    (hletter : name.text.head?.any Text.isLetter = true) (source : σ) :
    resolveReference palettes done isLast name.text source = (.ok (some name), source) := by
  have hread : ChordName.read name.text = .ok name := dif_pos name.valid
  cases htext : name.text with
  | nil =>
    rw [htext] at hletter
    cases hletter
  | cons c rest =>
    rw [htext, List.head?_cons, Option.any_some] at hletter
    rw [resolveReference_of_letter hletter, ← htext, hread]
    rfl

/-- Literals are resolved again to what they are. -/
theorem resolveTokens_reread {done : List ChordName}
    (h : ∀ r ∈ resolved, r.Literal) (source : σ) :
    resolveTokens palettes done (resolved.map ResolvedToken.reread) source =
      (Except.map some (.ok resolved), source) := by
  induction resolved generalizing done with
  | nil => rfl
  | cons r resolved ih =>
    obtain ⟨hletter, htight, -⟩ := h r List.mem_cons_self
    have hreference : r.reread.reference = r.name.text := by
      rw [ResolvedToken.reread, htight, ite_self]
    rw [List.map_cons, resolveTokens, hreference, resolveReference_literal hletter]
    simp only [ih fun r hr => h r (List.mem_cons_of_mem _ hr)]
    rfl

/-- A pattern in which literals are written is resolved to them. -/
theorem resolve_write {p : ChordPattern} (hp : p.text = write resolved) (hne : resolved ≠ [])
    (h : ∀ r ∈ resolved, r.Literal) (source : σ) :
    (resolve palettes p source).result = .ok resolved := by
  have hbeats : ∀ r ∈ resolved, r.beats.Readable := fun r hr => (h r hr).readable
  have htokens : p.tokens = .ok (resolved.map ResolvedToken.reread) := by
    rw [ChordPattern.tokens, hp, mapM_read_splitOn_write hne hbeats]
  rw [resolve_eq_resolvePasses htokens, resolvePasses_of_pass (resolveTokens_reread h source)]

end

end Resolution

/-! ## Equal runs -/

/-- The runs have equal chords, octaves included, and the same lengths. -/
abbrev SameRuns : List Run → List Run → Prop :=
  List.Forall₂ fun r' r => r'.chord.same r.chord = true ∧ r'.ticks = r.ticks

namespace SameRuns

variable {runs' runs : List Run}

/-- Equal runs count down alike. -/
theorem counters_eq (h : SameRuns runs' runs) :
    (runs'.flatMap fun r => countdown r.ticks) = runs.flatMap fun r => countdown r.ticks := by
  induction h with
  | nil => rfl
  | cons hr _ ih => rw [List.flatMap_cons, List.flatMap_cons, hr.2, ih]

/-- Equal runs fill the same number of ticks. -/
theorem total_eq (h : SameRuns runs' runs) :
    Cycle.total Run.ticks runs' = Cycle.total Run.ticks runs := by
  rw [← length_counters, ← length_counters, h.counters_eq]

/-- If neighbors differ in harmony, so do those of runs that are equal to them. -/
theorem isChain (h : SameRuns runs' runs)
    (hchain : runs.IsChain fun r s => s.chord.sameHarmony r.chord = false) :
    runs'.IsChain fun r s => s.chord.sameHarmony r.chord = false := by
  induction h with
  | nil => exact .nil
  | cons hr hrest ih =>
    refine List.isChain_cons.2 ⟨?_, ih hchain.tail⟩
    cases hrest with
    | nil => nofun
    | cons hs _ =>
      rintro s ⟨⟩
      rw [Chord.sameHarmony_congr (Chord.sameHarmony_of_same hs.1)
        (Chord.sameHarmony_of_same hr.1)]
      exact (List.isChain_cons_cons.1 hchain).1

/-- At every tick the chords are equal. -/
theorem chords (h : SameRuns runs' runs) :
    List.Forall₂ (fun c' c => Timeline.sameChord c' c = true) (runs'.flatMap Run.chords)
      (runs.flatMap Run.chords) := by
  refine List.rel_flatMap h fun r' r hr => ?_
  rw [Run.chords, Run.chords, hr.2]
  refine List.forall₂_iff_get.2 ⟨by simp, fun i _ _ => ?_⟩
  simpa [Timeline.sameChord] using hr.1

end SameRuns

/-! ## Stamping -/

namespace Stamping

variable {settings settings' : Settings} {first first' : ChordName} {ticks : Nat}

/-- Tokens that can be stamped and do not overfill the song are all stamped. -/
theorem stampsWithin_of_forall₂ {tokens : List ResolvedToken} {items : List Stamp}
    (h : List.Forall₂ (fun token s => stamp settings first token = .ok s) tokens items)
    (hfit : Cycle.total Stamp.ticks items ≤ ticks) :
    stampsWithin settings first ticks tokens = .ok items := by
  induction h generalizing ticks with
  | nil => unfold stampsWithin; rfl
  | @cons token s tokens items hs _ ih =>
    have hpos := s.ticks_pos
    rw [Cycle.total_cons] at hfit
    obtain ⟨ticks, rfl⟩ := Nat.exists_eq_succ_of_ne_zero (show ticks ≠ 0 by omega)
    rw [stampsWithin, hs]
    have hrest := ih (show Cycle.total Stamp.ticks items ≤ ticks + 1 - s.ticks by omega)
    show (do
      let stamps ← stampsWithin settings first (ticks + 1 - s.ticks) tokens
      Except.ok (s :: stamps)) = _
    rw [hrest]
    rfl

/-- The run of a stamp, before it is joined with others. -/
def Stamp.run (s : Stamp) : Run := ⟨s.chord, s.ticks⟩

/-- Stamps that fill the song, with different harmonies next to each other, are its runs. -/
theorem chordRuns_of_fill {items : List Stamp} (hne : items ≠ [])
    (hfill : Cycle.total Stamp.ticks items = ticks)
    (hchain : (items.map Stamp.run).IsChain fun r s => s.chord.sameHarmony r.chord = false) :
    chordRuns (Cycle.lay Stamp.ticks items ticks) = items.map Stamp.run := by
  rw [Cycle.lay_eq_layOnce Stamp.ticks_pos hne hfill, chordRuns,
    Cycle.map_layOnce Stamp.ticks fun (s : Stamp) ticks => Run.mk s.chord ticks]
  exact Run.merge_eq_self hchain

/-- The settings and the first names of two renderings agree, but for the ticks of a beat, of which
the second one has one. -/
structure Agrees (settings settings' : Settings) (first first' : ChordName) : Prop where
  crossover : settings'.crossover = settings.crossover
  minimize : settings'.minimize = settings.minimize
  ticksPerBeat : settings'.ticksPerBeat = 1
  first : first'.parts = first.parts

/-- A dumped run is stamped as a run of the same length, with an equal chord. -/
theorem exists_stamp_of_dumpedAs (hagrees : Agrees settings settings' first first') {r : Run}
    {token : ResolvedToken} (h : DumpedAs r token) (hpos : 0 < r.ticks)
    (hchord : ∃ name, r.chord = chordOf settings first name) (mark : Bool) :
    ∃ s, stamp settings' first' { token with startsSection := mark } = .ok s ∧
      s.run.chord.same r.chord = true ∧ s.run.ticks = r.ticks := by
  have hlength : Beats.ticks? token.beats.value settings'.ticksPerBeat =
      some (r.ticks : Int) := by
    rw [hagrees.ticksPerBeat]
    exact h.ticks
  refine ⟨⟨mark, chordOf settings' first' token.name, r.ticks, hpos⟩, ?_, ?_, rfl⟩
  · unfold stamp
    split
    · next hnone =>
      rw [hlength] at hnone
      cases hnone
    · next n hsome =>
      rw [hlength] at hsome
      cases hsome
      exact dif_pos (Int.natCast_pos.2 hpos)
  · obtain ⟨name, hname⟩ := hchord
    have hparts : token.name.parts = name.parts := by
      rw [h.parts, hname, rootClass_chordOf, quality_chordOf]
    rw [hname]
    exact chordOf_same_of_parts hagrees.crossover hagrees.minimize hagrees.first hparts

/-- Dumped tokens are stamped, with runs that are equal to those that were dumped. -/
theorem exists_stamps_of_dumpedAs (hagrees : Agrees settings settings' first first')
    {runs : List Run} {tokens : List ResolvedToken} (h : List.Forall₂ DumpedAs runs tokens)
    (pos : ∀ r ∈ runs, 0 < r.ticks)
    (hchord : ∀ r ∈ runs, ∃ name, r.chord = chordOf settings first name) :
    ∃ items, List.Forall₂ (fun token s => stamp settings' first' token = .ok s) tokens items ∧
      SameRuns (items.map Stamp.run) runs := by
  induction h with
  | nil => exact ⟨[], .nil, .nil⟩
  | @cons r token runs tokens hr _ ih =>
    obtain ⟨s, hs, hsame⟩ := exists_stamp_of_dumpedAs hagrees hr (pos r List.mem_cons_self)
      (hchord r List.mem_cons_self) token.startsSection
    obtain ⟨items, hitems, hall⟩ := ih (fun r hr => pos r (List.mem_cons_of_mem _ hr))
      fun r hr => hchord r (List.mem_cons_of_mem _ hr)
    exact ⟨s :: items, .cons hs hitems, .cons hsame hall⟩

/-- The dumped runs of a rendering make a timeline of equal runs. -/
theorem exists_timeline_of_dumpedAs {runs : List Run} {token : ResolvedToken}
    {rest : List ResolvedToken} (hrendered : RenderedRuns settings first ticks runs)
    (hagrees : Agrees settings settings' first token.name)
    (h : List.Forall₂ DumpedAs runs (token :: rest)) :
    ∃ t runs', timeline settings' ticks (token :: rest) = .ok t ∧ SameRuns runs' runs ∧
      t.slots.toList.map Slot.chord = runs'.flatMap Run.chords ∧
      t.slots.toList.map Slot.chordTicks = runs'.flatMap fun r => countdown r.ticks := by
  obtain ⟨r, runs, hr, hruns, rfl⟩ := List.forall₂_cons_right_iff.1 h
  -- The first token is stamped with a mark, whether it has one or not.
  obtain ⟨s, hs, hsame⟩ := exists_stamp_of_dumpedAs hagrees hr
    (hrendered.pos r List.mem_cons_self) (hrendered.chord r List.mem_cons_self) true
  obtain ⟨items, hitems, hall⟩ := exists_stamps_of_dumpedAs hagrees hruns
    (fun r hr => hrendered.pos r (List.mem_cons_of_mem _ hr))
    fun r hr => hrendered.chord r (List.mem_cons_of_mem _ hr)
  have hsameRuns : SameRuns ((s :: items).map Stamp.run) (r :: runs) := .cons hsame hall
  have hfill : Cycle.total Stamp.ticks (s :: items) = ticks := by
    rw [← hrendered.total_eq, ← hsameRuns.total_eq]
    simp [Cycle.total, List.foldr_map, Stamp.run]
  have hstamps : stamps settings' ticks (token :: rest) = .ok (s :: items) :=
    stampsWithin_of_forall₂ (.cons hs hitems) (Nat.le_of_eq hfill)
  obtain ⟨t, ht, hchords, hcounters, -⟩ := timeline_of_stamps hstamps
  rw [chordRuns_of_fill (List.cons_ne_nil _ _) hfill (hsameRuns.isChain hrendered.changes)]
    at hchords hcounters
  exact ⟨t, _, ht, hsameRuns, hchords, hcounters⟩

end Stamping

namespace Timeline

/-- The timelines are equally long, and have at every tick equal chords, octaves included, that last
equally long. -/
structure SameChords (t t' : Timeline) : Prop where
  ticks_eq : t'.ticks = t.ticks
  chord : ∀ tick < t.ticks, ∃ c c', t.chord? tick = some c ∧ t'.chord? tick = some c' ∧
    c'.same c = true
  chordTicks : ∀ tick < t.ticks, t'.chordTicks tick = t.chordTicks tick

section
variable {t t' : Timeline} {runs runs' : List Run}

/-- Timelines of equal runs have equal chords. -/
theorem sameChords_of_sameRuns (h : SameRuns runs' runs)
    (hchords : t.slots.toList.map Slot.chord = runs.flatMap Run.chords)
    (hcounters : t.slots.toList.map Slot.chordTicks = runs.flatMap fun r => countdown r.ticks)
    (hchords' : t'.slots.toList.map Slot.chord = runs'.flatMap Run.chords)
    (hcounters' : t'.slots.toList.map Slot.chordTicks = runs'.flatMap fun r => countdown r.ticks) :
    SameChords t t' where
  ticks_eq := by
    rw [ticks_eq_length hchords, ticks_eq_length hchords', h.chords.length_eq]
  chord tick hlt := by
    rw [ticks_eq_length hchords] at hlt
    have hc := List.getElem?_eq_getElem hlt
    have hc' := List.getElem?_eq_getElem (hlt.trans_eq h.chords.length_eq.symm)
    have hsame := Outcome.rel_of_getElem? h.chords hc' hc
    rw [← chord?_eq hchords hc, ← chord?_eq hchords' hc'] at hsame
    obtain ⟨r, -, hmem⟩ := List.mem_flatMap.1 (List.mem_of_getElem? hc)
    obtain ⟨-, hr⟩ := List.mem_replicate.1 hmem
    rw [← chord?_eq hchords hc] at hr
    rw [hr] at hsame
    cases hchord : t'.chord? tick with
    | none =>
      rw [hchord] at hsame
      cases hsame
    | some c' =>
      rw [hchord] at hsame
      exact ⟨r.chord, c', hr, rfl, hsame⟩
  chordTicks tick hlt := by
    rw [ticks_eq_total hcounters, ← length_counters] at hlt
    have hn := List.getElem?_eq_getElem hlt
    rw [h.counters_eq] at hcounters'
    rw [chordTicks_eq hcounters hn, chordTicks_eq hcounters' hn]

/-- The runs that are found are those whose columns the timeline has, and they are dumped in
order. -/
theorem runs_and_dump_eq_ok (pos : ∀ r ∈ runs, 0 < r.ticks)
    (hchords : t.slots.toList.map Slot.chord = runs.flatMap Run.chords)
    (hcounters : t.slots.toList.map Slot.chordTicks = runs.flatMap fun r => countdown r.ticks) :
    t.runs = .ok ((Cycle.layOnce Run.ticks 0 runs).map
      fun o => ⟨o.start, some o.item.chord, o.ticks⟩) ∧
    t.dump = .ok (Text.commaJoin (runs.map Run.write)) := by
  have hruns := runs_eq_ok (fun r => some r.chord) hcounters pos fun o ho => by
    have hpos := ((Cycle.tiles_layOnce 0 pos).bounds ho).2.1
    rw [hchords, Run.getElem?_chords ho (Nat.le_refl _) (by omega)]
  refine ⟨hruns, ?_⟩
  have htexts := Cycle.map_layOnce Run.ticks
    (fun (r : Run) ticks => (⟨r.chord, ticks⟩ : Run).write) 0 runs
  rw [dump, hruns, Except.map, List.map_map]
  exact congrArg (fun texts => Except.ok (Text.commaJoin texts)) htexts

/-- The runs that are found are as long as those that are laid. -/
theorem forall_length_iff (P : Int → Prop) :
    (∀ r ∈ (Cycle.layOnce Run.ticks 0 runs).map
      fun o => (⟨o.start, some o.item.chord, o.ticks⟩ : ChordRun), P r.length) ↔
      ∀ r ∈ runs, P r.ticks := by
  have hlengths : ((Cycle.layOnce Run.ticks 0 runs).map fun o => o.ticks) = runs.map Run.ticks :=
    Cycle.map_layOnce Run.ticks (fun _ ticks => ticks) 0 runs
  calc (∀ r ∈ (Cycle.layOnce Run.ticks 0 runs).map
        fun o => (⟨o.start, some o.item.chord, o.ticks⟩ : ChordRun), P r.length)
      ↔ ∀ n ∈ (Cycle.layOnce Run.ticks 0 runs).map fun o => o.ticks, P (n : Nat) := by
        rw [List.forall_mem_map, List.forall_mem_map]
    _ ↔ ∀ r ∈ runs, P r.ticks := by rw [hlengths, List.forall_mem_map]

end

end Timeline

/-! ## Rendering the dump -/

/-- The only pattern of the engine has the given text, and is rendered under the given crossover and
voicing, whether these are settings of the pattern or of the engine. -/
def HarmonyEngine.PlaysOnly (engine : HarmonyEngine) (text : Text) (crossover : Int)
    (minimize : Bool) : Prop :=
  ∃ p, engine.patterns = [p] ∧ p.text = text ∧ p.crossover.getD engine.crossover = crossover ∧
    p.minimize.getD engine.minimize = minimize

namespace HarmonyEngine

section
variable {settings : Stamping.Settings} {first : ChordName} {ticks : Nat} {runs : List Run}

/-- An engine that plays only the dump of a rendering renders its chords again. -/
theorem exists_render_of_playsOnly (hrendered : Stamping.RenderedRuns settings first ticks runs)
    (hkept : ∀ r ∈ runs, LengthKept r.ticks) {engine : HarmonyEngine} {song : Structure}
    (hengine : engine.PlaysOnly (Text.commaJoin (runs.map Run.write)) settings.crossover
      settings.minimize)
    (hticks : song.ticks = ticks) (hbeat : song.ticksPerBeat = 1) {σ : Type} [Source σ]
    (source : σ) :
    ∃ t runs', (engine.renderFrom song source).result = .ok t ∧ SameRuns runs' runs ∧
      t.slots.toList.map Slot.chord = runs'.flatMap Run.chords ∧
      t.slots.toList.map Slot.chordTicks = runs'.flatMap fun r => countdown r.ticks := by
  subst hticks
  obtain ⟨p, hpatterns, htext, hcrossover, hminimize⟩ := hengine
  obtain ⟨tokens, htokens⟩ : ∃ tokens, List.Forall₂ DumpedAs runs tokens :=
    Outcome.exists_forall₂ fun r hr => exists_dumpedAs (hrendered.named hr) (hkept r hr)
  have hliteral : ∀ token ∈ tokens, token.Literal := by
    intro token hmem
    obtain ⟨r, -, hr⟩ := Outcome.exists_rel_of_mem htokens hmem
    exact hr.literal
  have hwrite : p.text = Resolution.write tokens := by
    rw [htext, Resolution.write, map_write_of_dumpedAs htokens]
  cases tokens with
  | nil => exact absurd (List.forall₂_nil_right_iff.1 htokens) hrendered.ne_nil
  | cons token tokens =>
    have hdrawn := Source.pick_singleton source hpatterns engine.nonempty
    have hfirst : token.name.parts = first.parts := by
      obtain ⟨r, rest, hr, -, rfl⟩ := List.forall₂_cons_right_iff.1 htokens
      rw [hr.parts, hrendered.first r rfl, Stamping.rootClass_chordOf, Stamping.quality_chordOf]
    have hagrees : Stamping.Agrees settings (engine.settings p song) first token.name :=
      ⟨hcrossover, hminimize, hbeat, hfirst⟩
    obtain ⟨t, runs', ht, hsame, hchords, hcounters⟩ :=
      Stamping.exists_timeline_of_dumpedAs hrendered hagrees htokens
    refine ⟨t, runs', ?_, hsame, hchords, hcounters⟩
    rw [result_renderFrom, hdrawn, Resolution.resolve_write hwrite (List.cons_ne_nil _ _) hliteral]
    exact ht

/-- What is dumped of at least one run can be given as a chord pattern. -/
theorem exists_make_dump (hne : runs ≠ []) :
    ∃ p, ChordPattern.make (Text.commaJoin (runs.map Run.write)) = .ok p := by
  obtain ⟨r, rest, rfl⟩ := List.exists_cons_of_ne_nil hne
  have hprefix : r.write <+: Text.commaJoin ((r :: rest).map Run.write) := by
    cases rest with
    | nil => rw [List.map_singleton, Text.commaJoin, List.intercalate_singleton]
    | cons s rest =>
      rw [List.map_cons, List.map_cons, Text.commaJoin, List.intercalate_cons_cons,
        List.append_assoc]
      exact List.prefix_append _ _
  have hslash : '/' ∈ r.write := List.mem_append_right _ List.mem_cons_self
  have hblank : Text.isBlank (Text.commaJoin ((r :: rest).map Run.write)) = false :=
    List.all_eq_false.2 ⟨'/', hprefix.subset hslash, by decide⟩
  unfold ChordPattern.make
  split
  · next h =>
    rw [hblank] at h
    cases h
  · exact ⟨_, rfl⟩

end

/-- The dump of a rendered timeline is a chord pattern. If the lengths of its runs are kept, as all
below `2 ^ 52` are, then every engine that has this pattern only, under the crossover and the
voicing of the rendering, renders every song of the same length whose beats have one tick, whatever
it draws, and the chords are those of the timeline. -/
theorem dump_faithful {σ : Type} [Source σ] {engine : HarmonyEngine} {song : Structure} {source : σ}
    {t : Timeline} (h : (engine.renderFrom song source).result = .ok t) :
    let settings := engine.settings (Source.pick source engine.patterns engine.nonempty).1 song
    ∃ runs text, t.runs = .ok runs ∧ t.dump = .ok text ∧
      (∃ p, ChordPattern.make text = .ok p) ∧
      (∀ r ∈ runs, 0 < r.length ∧ (r.length < 2 ^ 52 → LengthKept r.length)) ∧
      ((∀ r ∈ runs, LengthKept r.length) →
        ∀ (engine' : HarmonyEngine) (song' : Structure),
          engine'.PlaysOnly text settings.crossover settings.minimize →
          song'.ticks = song.ticks → song'.ticksPerBeat = 1 →
          ∀ {τ : Type} [Source τ] (source' : τ),
            ∃ t', (engine'.renderFrom song' source').result = .ok t' ∧ t.SameChords t') := by
  intro settings
  obtain ⟨first, runs, hrendered, hchords, hcounters⟩ := exists_renderedRuns h
  obtain ⟨hruns, hdump⟩ := Timeline.runs_and_dump_eq_ok hrendered.pos hchords hcounters
  refine ⟨_, _, hruns, hdump, exists_make_dump hrendered.ne_nil, ?_, ?_⟩
  · refine (Timeline.forall_length_iff fun n => 0 < n ∧ (n < 2 ^ 52 → LengthKept n)).2
      fun r hr => ?_
    have hpos := hrendered.pos r hr
    exact ⟨Int.natCast_pos.2 hpos, fun hlt => lengthKept_of_lt hpos (by exact_mod_cast hlt)⟩
  · intro hkept engine' song' hengine hticks hbeat τ _ source'
    have hkept' : ∀ r ∈ runs, LengthKept r.ticks := (Timeline.forall_length_iff LengthKept).1 hkept
    obtain ⟨t', runs', ht', hsame, hchords', hcounters'⟩ :=
      exists_render_of_playsOnly hrendered hkept' hengine hticks hbeat source'
    exact ⟨t', ht', Timeline.sameChords_of_sameRuns hsame hchords hcounters hchords' hcounters'⟩

/-- A flat name and a drawn minor chord, with the first chord cut off at the end of the song and
dumped under its sharp name. -/
theorem dump_faithful_enharmonic :
    let engine : HarmonyEngine := ⟨[⟨"Db/1.5,0/2".toList, none, none, by decide⟩],
      [⟨[⟨" Am".toList, by decide⟩, ⟨"C#".toList, by decide⟩], by simp⟩], true, 2, by simp⟩
    let song : Structure := ⟨8, 2, 127, by decide, by decide, by decide⟩
    let dumped : HarmonyEngine := ⟨[⟨"C#/3,Am/4,C#/1".toList, some true, none, by decide⟩],
      [], false, 2, by simp⟩
    let song' : Structure := ⟨8, 1, 127, by decide, by decide, by decide⟩
    ∃ t t', (engine.renderFrom song [0, 1, 0]).result = .ok t ∧
      t.dump = .ok "C#/3,Am/4,C#/1".toList ∧
      (dumped.renderFrom song' ([] : List Nat)).result = .ok t' ∧ t.SameChords t' := by
  intro engine song dumped song'
  let high : Chord := ⟨1, .major, 0, "Db".toList⟩
  let low : Chord := ⟨9, .minor, -1, "Am".toList⟩
  let t : Timeline := ⟨#[⟨high, 3, 7⟩, ⟨high, 2, 6⟩, ⟨high, 1, 5⟩, ⟨low, 4, 4⟩, ⟨low, 3, 3⟩,
    ⟨low, 2, 2⟩, ⟨low, 1, 1⟩, ⟨high, 1, 1⟩]⟩
  have hrender : (engine.renderFrom song [0, 1, 0]).result = .ok t := by decide +kernel
  have hdump : t.dump = .ok "C#/3,Am/4,C#/1".toList := by decide +kernel
  have hfound : t.runs = .ok [⟨0, high, 3⟩, ⟨3, low, 4⟩, ⟨7, high, 1⟩] := by decide +kernel
  obtain ⟨runs, text, hruns, htext, -, hkept, hreplay⟩ := dump_faithful hrender
  rw [hfound] at hruns
  rw [hdump] at htext
  cases hruns
  cases htext
  have hshort : ∀ r ∈ [ChordRun.mk 0 high 3, ⟨3, low, 4⟩, ⟨7, high, 1⟩], r.length < 2 ^ 52 := by
    decide
  obtain ⟨t', ht', hsame⟩ := hreplay (fun r hr => (hkept r hr).2 (hshort r hr)) dumped song'
    ⟨_, rfl, rfl, rfl, rfl⟩ rfl rfl ([] : List Nat)
  exact ⟨t, t', hrender, hdump, ht', hsame⟩

end HarmonyEngine

end Songsmith
