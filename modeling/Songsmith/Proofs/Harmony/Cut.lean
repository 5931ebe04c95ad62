import Songsmith.Proofs.Harmony.Rendering

/-!
# Shorter songs

What an engine renders over a shorter song is what it renders over a longer one, cut off
(`HarmonyEngine.renderFrom_cut`). Which tokens a pattern is resolved to does not depend on the
length of the song, and neither does what sounds at a tick or where a section starts; a token at
which the shorter song would stop stops the longer one, too (`Stamping.Unplayable.mono`). Only how
far it is to the next change is counted up to the end of the song, and the end of the shorter one
comes first (`FirstAfter.cut`). So the merging of runs across the cut and the rest of a section that
is cut in the middle need no argument of their own.
-/

namespace Songsmith

namespace FirstAfter

variable {happens : Nat → Prop} {ticks tick stop : Nat}

/-- With an earlier end, what comes first is the same or that end. -/
theorem cut (h : FirstAfter happens ticks tick stop) {limit : Nat} (htick : tick < limit)
    (hle : limit ≤ ticks) : FirstAfter happens limit tick (min stop limit) where
  lt := Nat.lt_min.2 ⟨h.lt, htick⟩
  le := Nat.min_le_right _ _
  happens_stop hlt := by
    have hstop : stop < limit := by omega
    rw [Nat.min_eq_left (Nat.le_of_lt hstop)]
    exact h.happens_stop (Nat.lt_of_lt_of_le hstop hle)
  not_between u hu hlt := h.not_between u hu (Nat.lt_of_lt_of_le hlt (Nat.min_le_left _ _))

/-- What comes first comes at one tick. -/
theorem unique (h : FirstAfter happens ticks tick stop) {stop' : Nat}
    (h' : FirstAfter happens ticks tick stop') : stop = stop' := by
  have hle := h.le
  have hle' := h'.le
  rcases Nat.lt_trichotomy stop stop' with hlt | heq | hlt
  · exact absurd (h.happens_stop (by omega)) (h'.not_between stop h.lt hlt)
  · exact heq
  · exact absurd (h'.happens_stop (by omega)) (h.not_between stop' h'.lt hlt)

/-- The distance to what comes first is cut off at the earlier end. -/
theorem sub_eq_min {limit : Nat} (h : FirstAfter happens limit tick stop) {stop' : Nat}
    (h' : FirstAfter happens ticks tick stop') (hle : limit ≤ ticks) :
    (stop : Int) - tick = min ((stop' : Int) - tick) ((limit : Int) - tick) := by
  have hstop := h.unique (h'.cut (Nat.lt_of_lt_of_le h.lt h.le) hle)
  omega

end FirstAfter

/-- The timeline is another one that is cut off behind some ticks: the chords are equal, octaves
included, and runs and sections that go on behind the cut end there. -/
structure Timeline.CutOff (t t' : Timeline) (ticks : Nat) : Prop where
  ticks_eq : t.ticks = ticks
  chord : ∀ tick : Nat, tick < ticks →
    ∃ c c', t.chord? tick = some c ∧ t'.chord? tick = some c' ∧ c.same c' = true
  chordTicks : ∀ tick : Nat, tick < ticks →
    t.chordTicks tick = min (t'.chordTicks tick) ((ticks : Int) - tick)
  sectionTicks : ∀ tick : Nat, tick < ticks →
    t.sectionTicks tick = min (t'.sectionTicks tick) ((ticks : Int) - tick)

namespace Stamping

section
variable {settings : Settings} {ticks ticks' : Nat}

/-- A repetition that stops within some ticks stops within more of them. -/
theorem Unplayable.mono {tokens : List ResolvedToken} (h : Unplayable settings ticks tokens)
    (hle : ticks ≤ ticks') : Unplayable settings ticks' tokens := by
  obtain ⟨k, start, token, hstart, hlt, htoken⟩ := h
  exact ⟨k, start, token, hstart, Nat.lt_of_lt_of_le hlt hle, htoken⟩

/-- Two timelines that say what the same tokens mean, over fewer and over more ticks. -/
theorem Renders.cutOff {first : ChordName} {tokens : List ResolvedToken} {t t' : Timeline}
    (h : Renders settings ticks first tokens t) (h' : Renders settings ticks' first tokens t')
    (hle : ticks ≤ ticks') : t.CutOff t' ticks where
  ticks_eq := h.ticks_eq
  chord tick htick := by
    obtain ⟨token, c, hsounds, hc, hsame⟩ := h.chord tick htick
    obtain ⟨token', c', hsounds', hc', hsame'⟩ := h'.chord tick (Nat.lt_of_lt_of_le htick hle)
    obtain rfl := hsounds.unique hsounds'
    exact ⟨c, c', hc, hc', Chord.same_trans hsame (Chord.same_comm c' _ ▸ hsame')⟩
  chordTicks tick htick := by
    obtain ⟨stop, hcounter, hfirst⟩ := h.chordTicks tick htick
    obtain ⟨stop', hcounter', hfirst'⟩ := h'.chordTicks tick (Nat.lt_of_lt_of_le htick hle)
    rw [hcounter, hcounter', hfirst.sub_eq_min hfirst' hle]
  sectionTicks tick htick := by
    obtain ⟨stop, hcounter, hfirst⟩ := h.sectionTicks tick htick
    obtain ⟨stop', hcounter', hfirst'⟩ := h'.sectionTicks tick (Nat.lt_of_lt_of_le htick hle)
    rw [hcounter, hcounter', hfirst.sub_eq_min hfirst' hle]

/-- Tokens that make a timeline over more ticks make one over fewer ticks, which is cut off. -/
theorem exists_timeline_cutOff {first : ResolvedToken} {rest : List ResolvedToken} {t' : Timeline}
    (h : timeline settings ticks' (first :: rest) = .ok t') (hle : ticks ≤ ticks') :
    ∃ t, timeline settings ticks (first :: rest) = .ok t ∧ t.CutOff t' ticks := by
  obtain ⟨items', hitems', hchords', hcounters', hsections'⟩ := exists_stamps_of_timeline h
  cases hitems : stamps settings ticks (first :: rest) with
  | error e => exact absurd ((unplayable_of_error hitems).1.mono hle) (not_unplayable hitems')
  | ok items =>
    obtain ⟨t, ht, hchords, hcounters, hsections⟩ := timeline_of_stamps hitems
    have hrenders := renders_of_columns hitems hchords hcounters hsections
    have hrenders' := renders_of_columns hitems' hchords' hcounters' hsections'
    exact ⟨t, ht, hrenders.cutOff hrenders' hle⟩

end

end Stamping

/-- If an engine renders a song, it renders every shorter song with as many ticks in a beat by the
same draws, and what it renders is the longer one, cut off. -/
theorem HarmonyEngine.renderFrom_cut {σ : Type} [Source σ] {engine : HarmonyEngine}
    {song song' : Structure} {source : σ} {t' : Timeline}
    (hbeat : song.ticksPerBeat = song'.ticksPerBeat) (hle : song.ticks ≤ song'.ticks)
    (h : (engine.renderFrom song' source).result = .ok t') :
    ∃ t, (engine.renderFrom song source).result = .ok t ∧ t.CutOff t' song.ticks := by
  obtain ⟨first, rest, hresolve, htimeline⟩ := renderFrom_eq_ok_iff.1 h
  obtain ⟨t, ht, hcut⟩ := Stamping.exists_timeline_cutOff htimeline hle
  have hsettings (p : ChordPattern) : engine.settings p song = engine.settings p song' := by
    rw [settings, settings, hbeat]
  refine ⟨t, renderFrom_eq_ok_iff.2 ⟨first, rest, hresolve, ?_⟩, hcut⟩
  rw [hsettings]
  exact ht

/-- A cut in the middle of a run of two tokens and of a section. -/
theorem HarmonyEngine.renderFrom_cut_merged :
    let engine : HarmonyEngine :=
      ⟨[⟨"C/2,C/2,+G/1".toList, none, none, by decide⟩], [], false, 2, by simp⟩
    let song : Structure := ⟨3, 1, 127, by decide, by decide, by decide⟩
    let song' : Structure := ⟨6, 1, 127, by decide, by decide, by decide⟩
    let c : Chord := ⟨0, .major, 0, ['C']⟩
    let g : Chord := ⟨7, .major, -1, ['G']⟩
    let t' : Timeline := ⟨#[⟨c, 4, 4⟩, ⟨c, 3, 3⟩, ⟨c, 2, 2⟩, ⟨c, 1, 1⟩, ⟨g, 1, 1⟩, ⟨c, 1, 1⟩]⟩
    (engine.renderFrom song' ([] : List Nat)).result = .ok t' ∧
      ∃ t, (engine.renderFrom song ([] : List Nat)).result = .ok t ∧ t.CutOff t' 3 := by
  intro engine song song' c g t'
  have hrender : (engine.renderFrom song' ([] : List Nat)).result = .ok t' := by decide +kernel
  have hbeat : song.ticksPerBeat = song'.ticksPerBeat := rfl
  have hle : song.ticks ≤ song'.ticks := by decide
  exact ⟨hrender, renderFrom_cut hbeat hle hrender⟩

end Songsmith
