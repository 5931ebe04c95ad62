import Songsmith.Proofs.Harmony.Rendering
import Songsmith.Proofs.Harmony.Walks

/-!
# Draws are heard

A chord that is drawn is never heard as the one before going on: wherever an occurrence of a drawn
token starts, other than that of the first token, a run of chords ends and another one starts
(`Timeline.ChangesAt`), and so it does where the pattern begins again behind a last token that is
drawn (`HarmonyEngine.draws_heard`). Two facts of different origin meet here. Resolving keeps a draw
from the name before it, and in the last place from the first name too
(`Resolution.sameHarmony_of_draw`). Rendering ends the run at the first tick of every occurrence
whose name means another harmony than the name of the occurrence before
(`Stamping.Renders.changesAt`), however the chords are voiced and whatever is joined elsewhere.
-/

namespace Songsmith

open Songsmith.Cycle

namespace ChordToken

/-- The reference is neither a backreference nor a name, so that a chord is drawn for it. -/
def IsDraw (token : ChordToken) : Prop :=
  token.reference.head? ≠ some '$' ∧ token.reference.head?.any Text.isLetter = false

/-- The length of a token in ticks, if it is positive and no number on the way is too large. -/
def ticks? (ticksPerBeat : Nat) (token : ChordToken) : Option Nat :=
  (Beats.ticks? token.beats.value ticksPerBeat).bind fun n =>
    if 0 < n then some n.toNat else none

end ChordToken

namespace Timeline

/-- A run of chords starts at the tick, and in front of it another one ends, of another harmony. -/
structure ChangesAt (t : Timeline) (tick : Nat) : Prop where
  pos : 0 < tick
  harmony : ∃ before after, t.chord? (tick - 1 : Nat) = some before ∧
    t.chord? tick = some after ∧ after.sameHarmony before = false
  counter : t.chordTicks (tick - 1 : Nat) = 1
  run : ∃ runs, t.runs = .ok runs ∧ ∃ r ∈ runs, r.tick = tick

/-- Every occurrence of a drawn token other than the first starts with a change of harmony, and so
does every repetition behind the first, if the last token is drawn. The occurrences are those of the
tokens repeated from tick zero on, and fill the song. -/
structure HearsDraws (t : Timeline) (song : Structure) (tokens : List ChordToken) : Prop where
  covered : ∀ tick < song.ticks,
    ∃ k, Covers (ChordToken.ticks? song.ticksPerBeat) tokens k tick
  draw : ∀ k tick token, Starts (ChordToken.ticks? song.ticksPerBeat) tokens k tick →
    tick < song.ticks → tokens[k % tokens.length]? = some token → 0 < k % tokens.length →
      token.IsDraw → t.ChangesAt tick
  loop : ∀ k tick token, Starts (ChordToken.ticks? song.ticksPerBeat) tokens k tick →
    tick < song.ticks → 0 < k → k % tokens.length = 0 → 2 ≤ tokens.length →
      tokens.getLast? = some token → token.IsDraw → t.ChangesAt tick

/-- Behind a counter of one a run of chords is found. -/
theorem exists_run_of_counter {t : Timeline} (h : t.check = .ok ()) {tick : Nat}
    (hlt : tick + 1 < t.ticks) (hone : t.chordTicks tick = 1) :
    ∃ runs, t.runs = .ok runs ∧ ∃ r ∈ runs, r.tick = (tick + 1 : Nat) := by
  obtain ⟨⟨runs, hruns⟩, -⟩ := (flaw?_eq_none_iff t).1 ((check_eq_ok_iff t).1 h)
  have hagree := hruns.runsAgree
  obtain ⟨o, ho, hlo, hhi⟩ := hagree.tiles.exists_covering (Nat.zero_le (tick + 1)) hlt
  refine ⟨_, hagree.runs_eq, _, List.mem_map_of_mem ho, ?_⟩
  -- A run that also covers the tick before would go on behind it.
  by_cases hstart : o.start = tick + 1
  · rw [hstart]
  · have := hagree.chordTicks o ho tick (by omega) (by omega)
    omega

end Timeline

/-- In a repetition of `n` items, the next one but behind the last comes from the next position. -/
theorem Cycle.add_one_mod_of_ne_zero {k n : Nat} (h : (k + 1) % n ≠ 0) :
    (k + 1) % n = k % n + 1 := by
  rcases Nat.eq_zero_or_pos n with rfl | hn
  · rw [Nat.mod_zero, Nat.mod_zero]
  · rw [← Nat.mod_add_mod] at h ⊢
    refine Nat.mod_eq_of_lt (Nat.lt_of_le_of_ne (Nat.mod_lt k hn) fun hend => h ?_)
    rw [hend, Nat.mod_self]

/-- In a repetition of `n` items, the first one comes again behind the last. -/
theorem Cycle.mod_add_one_of_eq_zero {k n : Nat} (hn : 0 < n) (h : (k + 1) % n = 0) :
    k % n + 1 = n := by
  rw [← Nat.mod_add_mod] at h
  refine Nat.le_antisymm (Nat.mod_lt k hn) (Nat.le_of_not_lt fun hlt => ?_)
  rw [Nat.mod_eq_of_lt hlt] at h
  cases h

/-- It does not matter which of two names is compared with the other. -/
theorem ChordName.sameHarmony_comm (n m : ChordName) : n.sameHarmony m = m.sameHarmony n :=
  Bool.beq_comm

/-! ## What a draw is kept from -/

namespace Resolution

/-- What is resolved for a draw is kept from the names around it. -/
theorem keptFrom_of_isDraw {palettes : List Palette} {names : List ChordName} {position : Nat}
    {token : ChordToken} {name : ChordName}
    (h : Resolves Eq palettes names position token.reference name) (hdraw : token.IsDraw) :
    ∃ exclusion, KeptFrom names position exclusion name := by
  obtain ⟨hmark, hletter⟩ := hdraw
  generalize token.reference = reference at h hmark hletter
  cases h with
  | literal hc =>
    rw [List.head?_cons, Option.any_some, hc] at hletter
    cases hletter
  | back => exact absurd rfl hmark
  | draw _ _ _ _ _ _ hkept => exact ⟨_, hkept⟩

section
variable {palettes : List Palette} {tokens : List ChordToken} {resolved : List ResolvedToken}
  {token : ChordToken}

/-- A name that is drawn means another harmony than the one before. -/
theorem sameHarmony_of_draw
    (hresolves : ∀ (position : Nat) token r, tokens[position]? = some token →
      resolved[position]? = some r →
        Resolves Eq palettes (resolved.map (·.name)) position token.reference r.name)
    {position : Nat} (htoken : tokens[position + 1]? = some token) (hdraw : token.IsDraw)
    {before after : ResolvedToken} (hbefore : resolved[position]? = some before)
    (hafter : resolved[position + 1]? = some after) :
    after.name.sameHarmony before.name = false := by
  obtain ⟨_, hkept⟩ := keptFrom_of_isDraw (hresolves _ _ _ htoken hafter) hdraw
  exact hkept.previous before.name (Nat.succ_pos _) (by simp [hbefore])

/-- A name that is drawn in the last place means another harmony than the first one. -/
theorem sameHarmony_of_last_draw
    (hresolves : ∀ (position : Nat) token r, tokens[position]? = some token →
      resolved[position]? = some r →
        Resolves Eq palettes (resolved.map (·.name)) position token.reference r.name)
    {position : Nat} (hpos : 0 < position) (hlast : position + 1 = resolved.length)
    (htoken : tokens[position]? = some token) (hdraw : token.IsDraw)
    {first last : ResolvedToken} (hfirst : resolved[0]? = some first)
    (hr : resolved[position]? = some last) :
    last.name.sameHarmony first.name = false := by
  obtain ⟨_, hkept⟩ := keptFrom_of_isDraw (hresolves _ _ _ htoken hr) hdraw
  exact hkept.first first.name hpos (by simpa using hlast) (by simp [hfirst])

end

end Resolution

/-! ## Where the harmony changes -/

namespace Stamping

section
variable {settings : Settings} {ticks : Nat} {first : ChordName} {tokens : List ResolvedToken}
  {t : Timeline}

/-- Whatever octaves two names are given, their chords compare as the names do. -/
theorem sameHarmony_chordOf (settings : Settings) (first name name' : ChordName) :
    (chordOf settings first name).sameHarmony (chordOf settings first name') =
      name.sameHarmony name' := by
  rw [Bool.eq_iff_iff, Chord.sameHarmony_iff, rootClass_chordOf, rootClass_chordOf,
    quality_chordOf, quality_chordOf, ChordName.sameHarmony, beq_iff_eq, Prod.ext_iff]

/-- The occurrence that starts at a tick of the song covers it. -/
theorem Renders.covers_of_starts (h : Renders settings ticks first tokens t) {k tick : Nat}
    (hstart : Starts (length? settings) tokens k tick) (hlt : tick < ticks) :
    Covers (length? settings) tokens k tick := by
  obtain ⟨j, hj, -⟩ := h.covered tick hlt
  obtain ⟨start, -, hj', -, hle, -⟩ := id hj
  have hkj := hj.le_of_starts hstart (Nat.le_refl _)
  -- A later occurrence would start later.
  obtain rfl : k = j := by
    by_contra hne
    have := hj'.lt (fun _ _ => length?_pos) hstart (by omega)
    omega
  exact hj

/-- A run ends in front of an occurrence whose name means another harmony than the name of the
occurrence before. -/
theorem Renders.counter_eq_one (h : Renders settings ticks first tokens t) {earlier : Nat}
    (hlt : earlier + 1 < ticks)
    (hchanged : HarmonyChanged settings first tokens earlier (earlier + 1)) :
    t.chordTicks earlier = 1 := by
  obtain ⟨stop, hcounter, hfirst⟩ := h.chordTicks earlier (by omega)
  have hlt := hfirst.lt
  have hle : ¬ earlier + 1 < stop := fun hlt =>
    hfirst.not_between (earlier + 1) (Nat.lt_succ_self _) hlt hchanged
  rw [hcounter]
  omega

/-- Where an occurrence starts whose name means another harmony than that of the one before, the
harmony changes. -/
theorem Renders.changesAt (h : Renders settings ticks first tokens t) (hcheck : t.check = .ok ())
    {k tick : Nat} (hstart : Starts (length? settings) tokens (k + 1) tick) (hlt : tick < ticks)
    {before after : ResolvedToken} (hbefore : tokens[k % tokens.length]? = some before)
    (hafter : tokens[(k + 1) % tokens.length]? = some after)
    (hne : after.name.sameHarmony before.name = false) : t.ChangesAt tick := by
  obtain ⟨start, n, _, hk, _, hn, rfl⟩ := hstart.pred
  have hpos := length?_pos hn
  obtain ⟨earlier, hearlier⟩ : ∃ earlier, start + n = earlier + 1 :=
    ⟨start + n - 1, by omega⟩
  rw [hearlier] at hstart hlt ⊢
  have hsounds : Sounds settings tokens earlier before :=
    ⟨k, ⟨start, earlier + 1, hk, hstart, by omega, Nat.lt_succ_self _⟩, hbefore⟩
  have hsounds' : Sounds settings tokens (earlier + 1) after :=
    ⟨k + 1, h.covers_of_starts hstart hlt, hafter⟩
  have hchanged : (chordOf settings first after.name).sameHarmony
      (chordOf settings first before.name) = false := by rw [sameHarmony_chordOf, hne]
  have hone := h.counter_eq_one hlt ⟨before, after, hsounds, hsounds', hchanged⟩
  refine ⟨Nat.succ_pos _, ?_, hone, ?_⟩
  · obtain ⟨_, c, hc, hchord, hsame⟩ := h.chord earlier (Nat.lt_of_succ_lt hlt)
    obtain ⟨_, d, hd, hchord', hsame'⟩ := h.chord (earlier + 1) hlt
    obtain rfl := hc.unique hsounds
    obtain rfl := hd.unique hsounds'
    refine ⟨c, d, hchord, hchord', ?_⟩
    rw [Chord.sameHarmony_congr (Chord.sameHarmony_of_same hsame')
      (Chord.sameHarmony_of_same hsame), hchanged]
  · exact Timeline.exists_run_of_counter hcheck (by rw [h.ticks_eq]; exact hlt) hone

end

/-- A timeline that is returned has passed the check. -/
theorem check_of_timeline {settings : Settings} {ticks : Nat} {tokens : List ResolvedToken}
    {t : Timeline} (h : timeline settings ticks tokens = .ok t) : t.check = .ok () := by
  obtain ⟨items, -, h⟩ := Outcome.bind_eq_ok_iff.1 h
  obtain ⟨t', -, h⟩ := Outcome.bind_eq_ok_iff.1 h
  obtain ⟨_, hcheck, h⟩ := Outcome.bind_eq_ok_iff.1 h
  cases h
  exact hcheck

/-- A resolved token is as long as the token that it comes from. -/
theorem length?_eq_ticks? (settings : Settings) {token : ChordToken} {r : ResolvedToken}
    (h : r.beats = token.beats) :
    length? settings r = token.ticks? settings.ticksPerBeat := by
  unfold length? ChordToken.ticks?
  rw [h]
  generalize Beats.ticks? token.beats.value settings.ticksPerBeat = ticks
  cases ticks with
  | none => rfl
  | some n => rfl

/-- The tokens of a pattern and what they are resolved to start at the same ticks. -/
theorem starts_iff_of_aligned (settings : Settings) {tokens : List ChordToken}
    {resolved : List ResolvedToken}
    (haligned : List.Forall₂ (fun token r => r.beats = token.beats) tokens resolved)
    {k tick : Nat} :
    Starts (ChordToken.ticks? settings.ticksPerBeat) tokens k tick ↔
      Starts (length? settings) resolved k tick := by
  have hlength := haligned.length_eq
  constructor
  · refine fun h => h.transport fun j _ token htoken => ?_
    have hj := (List.getElem?_eq_some_iff.1 htoken).1
    rw [hlength] at hj htoken
    have hr := List.getElem?_eq_getElem hj
    exact ⟨_, hr, length?_eq_ticks? settings (Outcome.rel_of_getElem? haligned htoken hr)⟩
  · refine fun h => h.transport fun j _ r hr => ?_
    have hj := (List.getElem?_eq_some_iff.1 hr).1
    rw [← hlength] at hj hr
    have htoken := List.getElem?_eq_getElem hj
    have hbeats := Outcome.rel_of_getElem? haligned htoken hr
    exact ⟨_, htoken, (length?_eq_ticks? settings hbeats).symm⟩

end Stamping

/-- A rendered timeline is consistent. -/
theorem HarmonyEngine.check_of_renderFrom {σ : Type} [Source σ] {engine : HarmonyEngine}
    {song : Structure} {source : σ} {t : Timeline}
    (h : (engine.renderFrom song source).result = .ok t) : t.check = .ok () := by
  obtain ⟨_, _, -, htimeline⟩ := renderFrom_eq_ok_iff.1 h
  exact Stamping.check_of_timeline htimeline

/-- What an engine renders changes its harmony at every draw behind the first token, and behind a
draw in the last place. -/
theorem HarmonyEngine.draws_heard {σ : Type} [Source σ] {engine : HarmonyEngine} {song : Structure}
    {source : σ} {t : Timeline} (h : (engine.renderFrom song source).result = .ok t) :
    let drawn := Source.pick source engine.patterns engine.nonempty
    ∃ tokens, drawn.1.tokens = .ok tokens ∧ t.HearsDraws song tokens := by
  intro drawn
  obtain ⟨first, rest, hresolve, htimeline⟩ := renderFrom_eq_ok_iff.1 h
  obtain ⟨tokens, htokens, hmarked, hresolves⟩ := Resolution.exists_resolves_of_resolve hresolve
  have haligned := hmarked.imp fun _ _ h => h.2
  obtain ⟨items, hitems, hchords, hcounters, hsections⟩ :=
    Stamping.exists_stamps_of_timeline htimeline
  have hrenders := Stamping.renders_of_columns hitems hchords hcounters hsections
  have hcheck := Stamping.check_of_timeline htimeline
  have hlength := haligned.length_eq
  have hpos : 0 < tokens.length := by rw [hlength]; exact Nat.succ_pos _
  have hstarts {k tick : Nat} :
      Starts (ChordToken.ticks? song.ticksPerBeat) tokens k tick ↔
        Starts (Stamping.length? (engine.settings drawn.1 song)) (first :: rest) k tick :=
    Stamping.starts_iff_of_aligned (engine.settings drawn.1 song) haligned
  have hget (k : Nat) : ∃ r, (first :: rest)[k % (first :: rest).length]? = some r :=
    ⟨_, List.getElem?_eq_getElem (Nat.mod_lt k (hlength ▸ hpos))⟩
  refine ⟨tokens, htokens, fun tick htick => ?_, ?_, ?_⟩
  · obtain ⟨k, ⟨start, stop, hstart, hstop, hcovers⟩, -⟩ := hrenders.covered tick htick
    exact ⟨k, start, stop, hstarts.2 hstart, hstarts.2 hstop, hcovers⟩
  · intro k tick token hstart htick htoken hk hdraw
    cases k with
    | zero => simp at hk
    | succ k =>
      obtain ⟨before, hbefore⟩ := hget k
      obtain ⟨after, hafter⟩ := hget (k + 1)
      refine hrenders.changesAt hcheck (hstarts.1 hstart) htick hbefore hafter ?_
      rw [← hlength] at hbefore hafter
      rw [Cycle.add_one_mod_of_ne_zero (Nat.ne_of_gt hk)] at htoken hafter
      exact Resolution.sameHarmony_of_draw hresolves htoken hdraw hbefore hafter
  · intro k tick token hstart htick hk hzero hmany htoken hdraw
    cases k with
    | zero => exact absurd rfl (Nat.ne_of_gt hk)
    | succ k =>
      obtain ⟨last, hlast⟩ := hget k
      obtain ⟨after, hafter⟩ := hget (k + 1)
      refine hrenders.changesAt hcheck (hstarts.1 hstart) htick hlast hafter ?_
      rw [← hlength] at hlast hafter
      have hend := Cycle.mod_add_one_of_eq_zero hpos hzero
      rw [List.getLast?_eq_getElem?, show tokens.length - 1 = k % tokens.length by omega] at htoken
      rw [hzero] at hafter
      rw [ChordName.sameHarmony_comm]
      exact Resolution.sameHarmony_of_last_draw hresolves (by omega) (hend.trans hlength) htoken
        hdraw hafter hlast

/-- A draw of `F` behind one of `C`, which stands before it, and one of `G` in the last place,
behind one of `F` and one of `C`, with which the pattern begins again. -/
theorem HarmonyEngine.draws_heard_redrawn :
    let engine : HarmonyEngine := ⟨[⟨"C/1,0/1,0!0/2".toList, none, none, by decide⟩],
      [⟨[⟨['C'], by decide⟩, ⟨['F'], by decide⟩, ⟨['G'], by decide⟩], by simp⟩], true, 2, by simp⟩
    let song : Structure := ⟨6, 1, 127, by decide, by decide, by decide⟩
    let draws : List Nat := [0, 0, 1, 1, 0, 2]
    let c : Chord := ⟨0, .major, 0, ['C']⟩
    let f : Chord := ⟨5, .major, 0, ['F']⟩
    let g : Chord := ⟨7, .major, -1, ['G']⟩
    let t : Timeline := ⟨#[⟨c, 1, 4⟩, ⟨f, 1, 3⟩, ⟨g, 2, 2⟩, ⟨g, 1, 1⟩, ⟨c, 1, 2⟩, ⟨f, 1, 1⟩]⟩
    let drawn := Source.pick draws engine.patterns engine.nonempty
    (engine.renderFrom song draws).result = .ok t ∧
      ∃ tokens, drawn.1.tokens = .ok tokens ∧ t.HearsDraws song tokens := by
  intro engine song draws c f g t drawn
  have hrender : (engine.renderFrom song draws).result = .ok t := by decide +kernel
  exact ⟨hrender, draws_heard hrender⟩

end Songsmith
