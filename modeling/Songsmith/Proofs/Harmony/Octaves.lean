import Songsmith.Proofs.Chord.Voicing
import Songsmith.Proofs.Harmony.Rendering

/-!
# Octaves of a rendering

All chords of one rendering are voiced under one crossover and, where that is asked for, near one
chord, the first. So a chord that is heard again is heard in the same octave, and no root is far
from the others: within a tritone of the first one if chords are voiced near it, and between the
octaves below and above the base pitch if they are not (`Timeline.VoicedBy`). A run that is joined
from several occurrences keeps the chord of the first, but as the others have the same octave, what
is heard at a tick is the chord of the occurrence there (`Timeline.SoundsAs`).
`HarmonyEngine.octaves_agree` says both of every timeline that is rendered.
-/

namespace Songsmith

namespace Timeline

/-- The octaves of a timeline are those of one rendering: equal harmonies have equal roots, the
first chord is voiced as its name is under the crossover, and the others are near it or, if they are
voiced alone, within an octave of the base pitch. -/
structure VoicedBy (t : Timeline) (settings : Stamping.Settings) : Prop where
  rootPitch_eq : ∀ tick tick' c d, t.chord? tick = some c → t.chord? tick' = some d →
    c.sameHarmony d = true → c.rootPitch = d.rootPitch
  first : ∃ c, t.chord? 0 = some c ∧ Chord.ofName c.text settings.crossover = .ok c
  near : settings.minimize = true → ∀ tick c first, t.chord? tick = some c →
    t.chord? 0 = some first → c.distance first ≤ 6
  range : settings.minimize = false → ∀ tick c, t.chord? tick = some c →
    -12 ≤ c.rootPitch ∧ c.rootPitch ≤ 11

/-- At every tick of an occurrence the pitches of its own chord are heard. -/
def SoundsAs (t : Timeline) (os : List (Occurrence Stamping.Stamp)) : Prop :=
  ∀ o ∈ os, ∀ tick : Nat, o.start ≤ tick → tick < o.start + o.ticks →
    ∃ c, t.chord? tick = some c ∧ ∀ base, c.pitches base = o.item.chord.pitches base

/-- A chord that is found at a tick stands in the column of chords. -/
theorem mem_column_of_chord? {t : Timeline} {tick : Int} {c : Chord} (h : t.chord? tick = some c) :
    some c ∈ t.slots.toList.map Slot.chord := by
  obtain ⟨s, hs, hc⟩ := Option.bind_eq_some_iff.1 h
  unfold slot? at hs
  split at hs
  · rw [← Array.getElem?_toList] at hs
    exact List.mem_map.2 ⟨s, List.mem_of_getElem? hs, hc⟩
  · cases hs

end Timeline

/-! ## Chords of names -/

/-- The text of a chord that was voiced from a name is read as that chord. -/
theorem ChordName.ofName_text_voiced (n : ChordName) (crossover : Int) :
    Chord.ofName (n.voiced crossover).text crossover = .ok (n.voiced crossover) := by
  have htrim : Text.trim (Text.trim n.text) = Text.trim n.text :=
    (Text.tight_trimBy Text.isBlankChar n.text).trimBy_eq
  have hvalid : (Chord.nameParts? (Text.trim (Text.trim n.text))).isSome := by
    rw [htrim]
    exact n.valid
  have hread : ChordName.read (n.voiced crossover).text = .ok ⟨Text.trim n.text, hvalid⟩ :=
    dif_pos hvalid
  have hparts : (⟨Text.trim n.text, hvalid⟩ : ChordName).parts = n.parts := by
    simp only [parts, htrim]
  rw [Chord.ofName, hread, Except.map, voiced, voiced, hparts]
  simp only [htrim]

/-- A name has its root in the octave of the base or in the one below, wherever the crossover is. -/
theorem ChordName.rootPitch_voiced_bounds (n : ChordName) (crossover : Int) :
    -12 ≤ (n.voiced crossover).rootPitch ∧ (n.voiced crossover).rootPitch ≤ 11 := by
  obtain ⟨hlow, hhigh, -⟩ := n.named_voiced crossover
  simp only [voiced, Chord.rootPitch] at hlow hhigh ⊢
  split <;> omega

namespace Stamping

variable {settings : Settings} {first name : ChordName}

/-- The first chord stays where its name puts it. -/
theorem chordOf_first (settings : Settings) (first : ChordName) :
    chordOf settings first first = first.voiced settings.crossover := by
  unfold chordOf
  split
  · exact Chord.nearestTo_eq_self fun octaves => by simp [Chord.distance]
  · rfl

/-- With minimized motion, a chord is within a tritone of the first one. -/
theorem distance_chordOf_le (h : settings.minimize = true) :
    (chordOf settings first name).distance (first.voiced settings.crossover) ≤ 6 := by
  rw [chordOf, if_pos h]
  exact Chord.distance_nearestTo_le _ _

/-- Without minimized motion, every name is voiced by itself. -/
theorem chordOf_of_not_minimize (h : settings.minimize = false) :
    chordOf settings first name = name.voiced settings.crossover := by
  rw [chordOf, h]
  rfl

/-- Wherever chords are voiced, no root is further from the base pitch than this. -/
theorem rootPitch_chordOf_bounds (settings : Settings) (first name : ChordName) :
    -18 ≤ (chordOf settings first name).rootPitch ∧
      (chordOf settings first name).rootPitch ≤ 17 := by
  cases h : settings.minimize with
  | true =>
    have hnear : (chordOf settings first name).distance (first.voiced settings.crossover) ≤ 6 :=
      distance_chordOf_le h
    have hfirst := first.rootPitch_voiced_bounds settings.crossover
    unfold Chord.distance at hnear
    omega
  | false =>
    have := name.rootPitch_voiced_bounds settings.crossover
    rw [chordOf_of_not_minimize h]
    omega

/-! ## The chords of a timeline -/

section
variable {ticks : Nat} {runs : List Run} {t : Timeline}

/-- A chord of a timeline that consists of the runs of a rendering is that of a name. -/
theorem RenderedRuns.exists_name (h : RenderedRuns settings first ticks runs)
    (hchords : t.slots.toList.map Slot.chord = runs.flatMap Run.chords) {tick : Int} {c : Chord}
    (hc : t.chord? tick = some c) : ∃ name, c = chordOf settings first name := by
  have hmem := Timeline.mem_column_of_chord? hc
  rw [hchords] at hmem
  obtain ⟨r, hr, hcr⟩ := List.mem_flatMap.1 hmem
  obtain ⟨name, hname⟩ := h.chord r hr
  obtain ⟨-, heq⟩ := List.mem_replicate.1 hcr
  exact ⟨name, (Option.some.inj heq).trans hname⟩

/-- The chord at the first tick is that of the first name. -/
theorem RenderedRuns.chord?_zero (h : RenderedRuns settings first ticks runs) (hne : runs ≠ [])
    (hchords : t.slots.toList.map Slot.chord = runs.flatMap Run.chords) :
    t.chord? 0 = some (first.voiced settings.crossover) := by
  obtain ⟨r, rest, rfl⟩ := List.exists_cons_of_ne_nil hne
  have hr : r.chord = chordOf settings first first := h.first r rfl
  have hpos := h.pos r List.mem_cons_self
  show t.chord? (0 : Nat) = _
  refine Timeline.chord?_eq hchords ?_
  rw [List.flatMap_cons, List.getElem?_append_left (by rwa [Run.length_chords]), Run.chords,
    List.getElem?_replicate_of_lt hpos, hr, chordOf_first]

/-- The runs of a rendering are voiced as its settings say. -/
theorem RenderedRuns.voicedBy (h : RenderedRuns settings first ticks runs) (hne : runs ≠ [])
    (hchords : t.slots.toList.map Slot.chord = runs.flatMap Run.chords) : t.VoicedBy settings where
  rootPitch_eq := by
    intro tick tick' c d hc hd hharmony
    obtain ⟨name, rfl⟩ := h.exists_name hchords hc
    obtain ⟨name', rfl⟩ := h.exists_name hchords hd
    have hoctave := (Chord.same_iff.1 (chordOf_same hharmony)).2
    rw [Chord.rootPitch, Chord.rootPitch, (Chord.sameHarmony_iff.1 hharmony).1, hoctave]
  first := ⟨_, h.chord?_zero hne hchords, first.ofName_text_voiced settings.crossover⟩
  near := by
    intro hminimize tick c first' hc hfirst
    rw [h.chord?_zero hne hchords] at hfirst
    cases hfirst
    obtain ⟨name, rfl⟩ := h.exists_name hchords hc
    exact distance_chordOf_le hminimize
  range := by
    intro hminimize tick c hc
    obtain ⟨name, rfl⟩ := h.exists_name hchords hc
    rw [chordOf_of_not_minimize hminimize]
    exact name.rootPitch_voiced_bounds settings.crossover

end

/-- Joining runs changes no pitch that is heard. -/
theorem soundsAs_of_stamps {first : ResolvedToken} {rest : List ResolvedToken} {ticks : Nat}
    {items : List Stamp} {t : Timeline} (h : stamps settings ticks (first :: rest) = .ok items)
    (hchords : t.slots.toList.map Slot.chord =
      (chordRuns (Cycle.lay Stamp.ticks items ticks)).flatMap Run.chords) :
    t.SoundsAs (Cycle.lay Stamp.ticks items ticks) := by
  intro o ho tick hlo hhi
  obtain ⟨k, hk⟩ := List.getElem?_of_mem ho
  obtain ⟨token, htoken, hof, -, hcovers⟩ := exists_placed h hk
  have hbounds := (tiles_stamps h).bounds ho
  obtain ⟨token', c, hsounds, hc, hsame⟩ := exists_sounds h (show tick < ticks by omega)
  obtain rfl := hsounds.unique ⟨k, hcovers tick hlo hhi, htoken⟩
  refine ⟨c, Timeline.chord?_eq hchords hc, fun base => ?_⟩
  rw [hof.chord]
  obtain ⟨hharmony, hoctave⟩ := Chord.same_iff.1 hsame
  obtain ⟨hclass, hquality⟩ := Chord.sameHarmony_iff.1 hharmony
  rw [Chord.pitches, Chord.pitches, Chord.rootPitch, Chord.rootPitch, hclass, hquality, hoctave]

end Stamping

/-- A timeline that is rendered is voiced under the settings of the pattern that was drawn, and its
joined runs sound what the single occurrences would. -/
theorem HarmonyEngine.octaves_agree {σ : Type} [Source σ] {engine : HarmonyEngine}
    {song : Structure} {source : σ} {t : Timeline}
    (h : (engine.renderFrom song source).result = .ok t) :
    let drawn := Source.pick source engine.patterns engine.nonempty
    let settings := engine.settings drawn.1 song
    t.VoicedBy settings ∧
      ∃ tokens items, (Resolution.resolve engine.palettes drawn.1 drawn.2).result = .ok tokens ∧
        Stamping.stamps settings song.ticks tokens = .ok items ∧
        Tiles 0 song.ticks (Cycle.lay Stamping.Stamp.ticks items song.ticks) ∧
        t.SoundsAs (Cycle.lay Stamping.Stamp.ticks items song.ticks) := by
  intro drawn settings
  obtain ⟨first, rest, hresolve, htimeline⟩ := renderFrom_eq_ok_iff.1 h
  obtain ⟨items, hitems, hchords, -⟩ := Stamping.exists_stamps_of_timeline htimeline
  have hrendered := Stamping.renderedRuns_of_stamps hitems
  exact ⟨hrendered.voicedBy hrendered.ne_nil hchords, _, items, hresolve, hitems,
    Stamping.tiles_stamps hitems, Stamping.soundsAs_of_stamps hitems hchords⟩

/-- A chord that is moved down to the first one, and two spellings of the first chord that are
joined across a repetition. -/
theorem HarmonyEngine.octaves_agree_enharmonic :
    let engine : HarmonyEngine :=
      ⟨[⟨"F#/1,Dm/1,Gb/2".toList, some true, none, by decide⟩], [], false, 2, by simp⟩
    let song : Structure := ⟨6, 1, 127, by decide, by decide, by decide⟩
    let sharp : Chord := ⟨6, .major, -1, "F#".toList⟩
    let minor : Chord := ⟨2, .minor, -1, "Dm".toList⟩
    let flat : Chord := ⟨6, .major, -1, "Gb".toList⟩
    let t : Timeline := ⟨#[⟨sharp, 1, 4⟩, ⟨minor, 1, 3⟩, ⟨flat, 3, 2⟩, ⟨flat, 2, 1⟩, ⟨flat, 1, 2⟩,
      ⟨minor, 1, 1⟩]⟩
    (engine.renderFrom song ([] : List Nat)).result = .ok t ∧ t.VoicedBy ⟨2, true, 1⟩ ∧
      ∃ tokens items, Stamping.stamps ⟨2, true, 1⟩ 6 tokens = .ok items ∧
        t.SoundsAs (Cycle.lay Stamping.Stamp.ticks items 6) := by
  intro engine song sharp minor flat t
  have hrender : (engine.renderFrom song ([] : List Nat)).result = .ok t := by decide +kernel
  obtain ⟨hvoiced, tokens, items, -, hitems, -, hsounds⟩ := octaves_agree hrender
  exact ⟨hrender, hvoiced, tokens, items, hitems, hsounds⟩

end Songsmith
