import Songsmith.Proofs.Harmony.Runs
import Songsmith.Proofs.Outcome

/-!
# What a rendered timeline plays

A resolved pattern means its tokens repeated from tick zero on: occurrence number `k` is that of
token `k` modulo their number, and lasts as long as the token (`Stamping.length?`,
`Cycle.Starts`). The timeline that is stamped says at every tick what the occurrence there means
(`Stamping.Renders`): its chord, how far it is to the next change of harmony, and how far it is to
the next section mark. Stamping fails exactly if the repetition comes to a token without a length
(`Stamping.Unplayable`); the checks of the finished columns never do. `Stamping.timeline_pointwise`
puts both together.

The stamps are an initial part of the tokens (`stampsWithin_eq_ok`), the occurrences laid from them
are those of the tokens (`exists_placed`), and they cover the song, so that the columns of runs and
sections can be read at the occurrence of each tick.
-/

namespace Songsmith.Stamping

open Songsmith.Cycle

/-! ## The meaning of a resolved pattern -/

/-- The length of a token in ticks, if it is positive and no number on the way is too large. -/
def length? (settings : Settings) (token : ResolvedToken) : Option Nat :=
  match Beats.ticks? token.beats.value settings.ticksPerBeat with
  | some n => if 0 < n then some n.toNat else none
  | none => none

/-- The repetition of the tokens comes to one without a length before the song is full. -/
def Unplayable (settings : Settings) (ticks : Nat) (tokens : List ResolvedToken) : Prop :=
  ∃ k start token, Starts (length? settings) tokens k start ∧ start < ticks ∧
    tokens[k % tokens.length]? = some token ∧ length? settings token = none

/-- The occurrence that covers a tick is one of the given token. -/
def Sounds (settings : Settings) (tokens : List ResolvedToken) (tick : Nat)
    (token : ResolvedToken) : Prop :=
  ∃ k, Covers (length? settings) tokens k tick ∧ tokens[k % tokens.length]? = some token

/-- An occurrence of the first token or of one with a section mark starts at the tick. -/
def SectionStart (settings : Settings) (tokens : List ResolvedToken) (tick : Nat) : Prop :=
  ∃ k token, Starts (length? settings) tokens k tick ∧ tokens[k % tokens.length]? = some token ∧
    (k % tokens.length = 0 ∨ token.startsSection = true)

/-- The harmony at a tick is another one than at an earlier tick. -/
def HarmonyChanged (settings : Settings) (first : ChordName) (tokens : List ResolvedToken)
    (earlier tick : Nat) : Prop :=
  ∃ before after, Sounds settings tokens earlier before ∧ Sounds settings tokens tick after ∧
    (chordOf settings first after.name).sameHarmony (chordOf settings first before.name) = false

/-- The timeline says at every tick of the song what the occurrence of a token there means. -/
structure Renders (settings : Settings) (ticks : Nat) (first : ChordName)
    (tokens : List ResolvedToken) (t : Timeline) : Prop where
  ticks_eq : t.ticks = ticks
  covered : ∀ tick < ticks, ∃! k, Covers (length? settings) tokens k tick
  chord : ∀ tick < ticks, ∃ token c, Sounds settings tokens tick token ∧ t.chord? tick = some c ∧
    c.same (chordOf settings first token.name) = true
  chordTicks : ∀ tick < ticks, ∃ stop : Nat, t.chordTicks tick = (stop : Int) - tick ∧
    FirstAfter (HarmonyChanged settings first tokens tick) ticks tick stop
  sectionTicks : ∀ tick < ticks, ∃ stop : Nat, t.sectionTicks tick = (stop : Int) - tick ∧
    FirstAfter (SectionStart settings tokens) ticks tick stop

/-! ## Chords of one rendering -/

/-- Under one crossover and one first chord, equal harmonies have equal octaves. -/
theorem chordOf_same {settings : Settings} {first name name' : ChordName}
    (h : (chordOf settings first name).sameHarmony (chordOf settings first name') = true) :
    (chordOf settings first name).same (chordOf settings first name') = true := by
  refine Chord.same_iff.2 ⟨h, ?_⟩
  rw [Chord.sameHarmony_iff] at h
  have hclass : name.parts.1 = name'.parts.1 := by
    unfold chordOf at h
    split at h <;> exact h.1
  unfold chordOf
  simp only [ChordName.voiced, Chord.nearestTo, Chord.rootPitch]
  split <;> simp only [hclass]

/-! ## Stamps -/

section
variable {settings : Settings} {first : ChordName}

/-- A length that a token has is at least one tick. -/
theorem length?_pos {token : ResolvedToken} {n : Nat} (h : length? settings token = some n) :
    0 < n := by
  unfold length? at h
  split at h
  · split at h
    · cases h
      omega
    · cases h
  · cases h

/-- A stamp has the length, the mark and the chord of its token. -/
theorem stamp_eq_ok {token : ResolvedToken} {s : Stamp}
    (h : stamp settings first token = .ok s) :
    length? settings token = some s.ticks ∧ s.startsSection = token.startsSection ∧
      s.chord = chordOf settings first token.name := by
  unfold stamp at h
  unfold length?
  split at h
  · cases h
  · next n hn =>
    split at h
    · next hpos => cases h; exact ⟨by rw [hn]; exact if_pos hpos, rfl, rfl⟩
    · cases h

/-- A token that cannot be stamped has no length, and what is wrong with its length is reported. -/
theorem stamp_eq_error {token : ResolvedToken} {e : Error}
    (h : stamp settings first token = .error e) :
    length? settings token = none ∧ ∃ cause, e = .malformed cause := by
  unfold stamp at h
  unfold length?
  split at h
  · next hn => cases h; exact ⟨by rw [hn], _, rfl⟩
  · next n hn =>
    split at h
    · cases h
    · next hpos => cases h; exact ⟨by rw [hn]; exact if_neg hpos, _, rfl⟩

/-- The stamps are those of an initial part of the tokens. -/
def StampedFrom (settings : Settings) (first : ChordName) (tokens : List ResolvedToken)
    (items : List Stamp) : Prop :=
  ∀ (j : Nat) (s : Stamp), items[j]? = some s →
    ∃ token, tokens[j]? = some token ∧ stamp settings first token = .ok s

/-- Stamping goes on in front of an initial part that is stamped. -/
theorem StampedFrom.cons {token : ResolvedToken} {s : Stamp} {tokens : List ResolvedToken}
    {items : List Stamp} (hs : stamp settings first token = .ok s)
    (h : StampedFrom settings first tokens items) :
    StampedFrom settings first (token :: tokens) (s :: items) := by
  intro j s' hj
  cases j with
  | zero => cases hj; exact ⟨token, rfl, hs⟩
  | succ j => simpa using h j s' (by simpa using hj)

/-- Stamps that can be made are either those of all tokens or long enough to fill the song. -/
theorem stampsWithin_eq_ok {ticks : Nat} {tokens : List ResolvedToken} {items : List Stamp}
    (h : stampsWithin settings first ticks tokens = .ok items) :
    StampedFrom settings first tokens items ∧ items.length ≤ tokens.length ∧
      (items.length = tokens.length ∨ ticks ≤ total Stamp.ticks items) := by
  induction tokens generalizing ticks items with
  | nil =>
    cases h
    exact ⟨fun _ _ hj => by simp at hj, Nat.le_refl _, .inl rfl⟩
  | cons token rest ih =>
    cases ticks with
    | zero =>
      cases h
      exact ⟨fun _ _ hj => by simp at hj, Nat.zero_le _, .inr (Nat.zero_le _)⟩
    | succ ticks =>
      rw [stampsWithin] at h
      obtain ⟨s, hs, h⟩ := Outcome.bind_eq_ok_iff.1 h
      obtain ⟨stamps, hstamps, h⟩ := Outcome.bind_eq_ok_iff.1 h
      cases h
      obtain ⟨hall, hle, hlong⟩ := ih hstamps
      refine ⟨hall.cons hs, by simpa using hle, ?_⟩
      rw [total_cons]
      rcases hlong with hlong | hlong
      · exact .inl (by simp [hlong])
      · exact .inr (by omega)

/-- If the stamps cannot be made, the tokens before one that has no length can, and do not fill the
song. -/
theorem stampsWithin_eq_error {ticks : Nat} {tokens : List ResolvedToken} {e : Error}
    (h : stampsWithin settings first ticks tokens = .error e) :
    ∃ (items : List Stamp) (token : ResolvedToken), StampedFrom settings first tokens items ∧
      total Stamp.ticks items < ticks ∧ tokens[items.length]? = some token ∧
      stamp settings first token = .error e := by
  induction tokens generalizing ticks with
  | nil => cases h
  | cons token rest ih =>
    cases ticks with
    | zero => cases h
    | succ ticks =>
      rw [stampsWithin] at h
      rcases Outcome.bind_eq_error_iff.1 h with herror | ⟨s, hs, h⟩
      · exact ⟨[], token, fun _ _ hj => by simp at hj, Nat.succ_pos _, rfl, herror⟩
      · rcases Outcome.bind_eq_error_iff.1 h with h | ⟨_, _, h⟩
        · obtain ⟨items, bad, hall, hlt, hbad, herror⟩ := ih h
          refine ⟨s :: items, bad, hall.cons hs, ?_, by simpa using hbad, herror⟩
          have := s.ticks_pos
          rw [total_cons]
          omega
        · cases h

/-- A stamp means what the token at its position does. The first one starts a section in any
case. -/
structure StampOf (settings : Settings) (first : ChordName) (position : Nat)
    (token : ResolvedToken) (s : Stamp) : Prop where
  ticks : length? settings token = some s.ticks
  startsSection : s.startsSection = true ↔ position = 0 ∨ token.startsSection = true
  chord : s.chord = chordOf settings first token.name

end

section
variable {settings : Settings} {first : ResolvedToken} {rest : List ResolvedToken} {ticks : Nat}
  {items : List Stamp}

/-- The mark that the first token is given beforehand changes nothing else. -/
theorem StampedFrom.unmark {name : ChordName}
    (h : StampedFrom settings name ({ first with startsSection := true } :: rest) items)
    {j : Nat} {s : Stamp} (hj : items[j]? = some s) :
    ∃ token, (first :: rest)[j]? = some token ∧ StampOf settings name j token s := by
  obtain ⟨token, htoken, hs⟩ := h j s hj
  obtain ⟨hlength, hmark, hchord⟩ := stamp_eq_ok hs
  cases j with
  | zero =>
    cases htoken
    exact ⟨first, rfl, hlength, by simp [hmark], hchord⟩
  | succ j => exact ⟨token, htoken, hlength, by simp [hmark], hchord⟩

/-- Stamps of an initial part of the tokens start where the tokens do. -/
theorem starts_of_stamps {name : ChordName}
    (h : StampedFrom settings name ({ first with startsSection := true } :: rest) items)
    {k start : Nat} (hk : items.length = (first :: rest).length ∨ k ≤ items.length)
    (hle : items.length ≤ (first :: rest).length)
    (hstart : Starts (some ∘ Stamp.ticks) items k start) :
    Starts (length? settings) (first :: rest) k start := by
  refine hstart.transport fun j hj s hs => ?_
  obtain ⟨token, htoken, hof⟩ := h.unmark hs
  have hmod : j % items.length = j % (first :: rest).length := by
    rcases hk with hk | hk
    · rw [hk]
    · rw [Nat.mod_eq_of_lt (by omega), Nat.mod_eq_of_lt (by omega)]
  exact ⟨token, hmod ▸ htoken, hof.ticks⟩

/-- Occurrence number `k` that is laid from the stamps is that of token `k` modulo their number. -/
theorem exists_placed (h : stamps settings ticks (first :: rest) = .ok items) {k : Nat}
    {o : Occurrence Stamp} (ho : (lay Stamp.ticks items ticks)[k]? = some o) :
    ∃ token, (first :: rest)[k % (first :: rest).length]? = some token ∧
      StampOf settings first.name (k % (first :: rest).length) token o.item ∧
      Starts (length? settings) (first :: rest) k o.start ∧
      ∀ tick, o.start ≤ tick → tick < o.start + o.ticks →
        Covers (length? settings) (first :: rest) k tick := by
  obtain ⟨hall, hle, hlong⟩ := stampsWithin_eq_ok h
  replace hle : items.length ≤ (first :: rest).length := hle
  have hne : items ≠ [] := by
    rintro rfl
    simp [lay, positions] at ho
  obtain ⟨start, s, hstart, hs, hlt, rfl⟩ := (getElem?_lay Stamp.ticks_pos hne).1 ho
  -- Unless all tokens are stamped, the song is full before a second round starts.
  have hk : items.length = (first :: rest).length ∨ k + 1 ≤ items.length := by
    refine hlong.imp_right fun hlong => ?_
    by_contra hge
    obtain ⟨earlier, hearlier, hle'⟩ := hstart.of_le (j := items.length) (by omega)
    have := hearlier.unique starts_length
    omega
  have hmod : k % items.length = k % (first :: rest).length := by
    rcases hk with hk | hk
    · rw [hk]
    · rw [Nat.mod_eq_of_lt (by omega), Nat.mod_eq_of_lt (by omega)]
  obtain ⟨token, htoken, hof⟩ := hall.unmark hs
  have hstart' := starts_of_stamps hall (hk.imp_right Nat.le_of_succ_le) hle hstart
  rw [hmod] at htoken hof
  refine ⟨token, htoken, hof, hstart', fun tick hlo hhi => ?_⟩
  exact ⟨start, start + s.ticks, hstart', .succ hstart' htoken hof.ticks, hlo,
    by simp at hhi; omega⟩

/-- What is laid from the stamps covers the song. -/
theorem tiles_stamps (h : stamps settings ticks (first :: rest) = .ok items) :
    Tiles 0 ticks (lay Stamp.ticks items ticks) := by
  cases items with
  | cons s items => exact tiles_lay Stamp.ticks_pos (List.cons_ne_nil _ _) ticks
  | nil =>
    obtain ⟨-, -, hlong⟩ := stampsWithin_eq_ok h
    obtain rfl : ticks = 0 := by simpa using hlong
    exact .nil

/-- A token at which the repetition would stop is not met while there are stamps. -/
theorem not_unplayable (h : stamps settings ticks (first :: rest) = .ok items) :
    ¬ Unplayable settings ticks (first :: rest) := by
  rintro ⟨k, start, token, hstart, hlt, htoken, hnone⟩
  obtain ⟨o, ho, hlo, hhi⟩ := (tiles_stamps h).exists_covering (Nat.zero_le _) hlt
  obtain ⟨k', hk'⟩ := List.getElem?_of_mem ho
  obtain ⟨_, -, -, -, hcovers⟩ := exists_placed h hk'
  have hcover := hcovers start hlo hhi
  have hle := hcover.le_of_starts hstart (Nat.le_refl _)
  obtain ⟨_, _, -, hstop, -, -⟩ := hcover
  obtain ⟨_, hnext, -⟩ := hstop.of_le (Nat.succ_le_succ hle)
  obtain ⟨_, n, x, -, hx, hn, -⟩ := hnext.pred
  rw [htoken] at hx
  cases hx
  rw [hnone] at hn
  cases hn

end

/-! ## Sections -/

/-- The sections of tiling occurrences last as long as the occurrences from the first mark on, and
start at the marked ones. -/
theorem sections_tile {start stop : Nat} {os : List (Occurrence Stamp)}
    (h : Tiles start stop os) :
    start + (os.foldr prependSection (0, [])).1 +
        total id (os.foldr prependSection (0, [])).2 = stop ∧
      (∀ n ∈ (os.foldr prependSection (0, [])).2, 0 < n) ∧
      (os.filter (·.item.startsSection)).map Occurrence.start =
        (positions id (start + (os.foldr prependSection (0, [])).1)
          (os.foldr prependSection (0, [])).2).map Prod.fst := by
  induction h with
  | nil => exact ⟨rfl, nofun, rfl⟩
  | @cons o os stop hpos _ ih =>
    rw [List.foldr_cons]
    obtain ⟨htotal, hall, hstarts⟩ := ih
    generalize os.foldr prependSection (0, []) = folded at htotal hall hstarts ⊢
    obtain ⟨unmarked, sections⟩ := folded
    dsimp only at htotal hall hstarts
    unfold prependSection
    by_cases hmark : o.item.startsSection = true
    · refine ⟨by simp [hmark]; omega, ?_, ?_⟩
      · simp only [hmark, if_true]
        intro n hn
        rcases List.mem_cons.1 hn with rfl | hn
        · omega
        · exact hall n hn
      · simp [hmark, hstarts, positions, Nat.add_assoc]
    · refine ⟨by simp [hmark]; omega, by simpa [hmark] using hall, ?_⟩
      simp [hmark, hstarts, Nat.add_assoc]

/-- Items are placed between where they start and where they end together. -/
theorem le_of_mem_positions {α : Type} {length : α → Nat} {start u : Nat} {xs : List α}
    (h : u ∈ (positions length start xs).map Prod.fst) :
    start ≤ u ∧ u ≤ start + total length xs := by
  induction xs generalizing start with
  | nil => cases h
  | cons x xs ih =>
    rw [positions, List.map_cons] at h
    rw [total_cons]
    rcases List.mem_cons.1 h with rfl | h
    · omega
    · have := ih h
      omega

/-- The counter of sections says how far it is to the next section mark. -/
theorem exists_section_firstAfter {ticks : Nat} {os : List (Occurrence Stamp)}
    (h : Tiles 0 ticks os) (hhead : (os.foldr prependSection (0, [])).1 = 0) {tick : Nat}
    (hlt : tick < ticks) :
    ∃ stop : Nat, ((sectionLengths os).flatMap countdown)[tick]? = some ((stop : Int) - tick) ∧
      FirstAfter (fun u => ∃ o ∈ os, o.item.startsSection = true ∧ o.start = u) ticks tick
        stop := by
  obtain ⟨htotal, -, hstarts⟩ := sections_tile h
  rw [hhead, ← sectionLengths] at htotal
  rw [hhead, ← sectionLengths] at hstarts
  have hstart (u : Nat) : (∃ o ∈ os, o.item.startsSection = true ∧ o.start = u) ↔
      u ∈ (positions id 0 (sectionLengths os)).map Prod.fst := by
    rw [Nat.add_zero] at hstarts
    rw [← hstarts]
    simp [and_assoc]
  obtain ⟨pre, n, post, hsplit, hlo, hhi⟩ :=
    exists_around (show tick < total id (sectionLengths os) by omega)
  rw [hsplit, total_append, total_cons] at htotal
  simp only [hstart]
  rw [hsplit, positions_append, positions]
  refine ⟨_, getElem?_counters id hlo hhi, hhi, by simp at htotal ⊢; omega, ?_, ?_⟩
  · intro hstop
    cases post with
    | nil => simp at htotal hstop; omega
    | cons m post => simp [positions]
  · intro u hu hstop hmem
    rw [List.map_append, List.map_cons, List.mem_append, List.mem_cons] at hmem
    rcases hmem with hmem | rfl | hmem
    · have := le_of_mem_positions hmem
      omega
    · omega
    · have := le_of_mem_positions hmem
      omega

/-! ## The timeline -/

section
variable {settings : Settings} {first : ResolvedToken} {rest : List ResolvedToken} {ticks : Nat}
  {items : List Stamp}

/-- The runs of the occurrences before they are joined. -/
def occurrenceRuns (os : List (Occurrence Stamp)) : List Run :=
  os.map fun o => ⟨o.item.chord, o.ticks⟩

/-- Occurrences that tile a song have no run without ticks. -/
theorem pos_of_mem_occurrenceRuns {os : List (Occurrence Stamp)} (h : Tiles 0 ticks os) :
    ∀ r ∈ occurrenceRuns os, 0 < r.ticks := by
  intro r hr
  obtain ⟨o, ho, rfl⟩ := List.mem_map.1 hr
  exact (h.bounds ho).2.1

/-- The merged runs of a tiling fill the song. -/
theorem total_chordRuns {os : List (Occurrence Stamp)} (h : Tiles 0 ticks os) :
    total Run.ticks (chordRuns os) = ticks := by
  have htotal := h.total_eq
  rw [chordRuns, Run.total_merge, ← htotal, Nat.zero_add]
  simp [total, List.foldr_map]

/-- The first occurrence has a section mark, so that nothing is left in front of the sections. -/
theorem unmarked_eq_zero (h : stamps settings ticks (first :: rest) = .ok items) :
    ((lay Stamp.ticks items ticks).foldr prependSection (0, [])).1 = 0 := by
  cases hos : lay Stamp.ticks items ticks with
  | nil => rfl
  | cons o os =>
    obtain ⟨_, -, hof, -⟩ := exists_placed h (k := 0) (o := o) (by rw [hos]; rfl)
    have hmark : o.item.startsSection = true := hof.startsSection.2 (.inl (Nat.zero_mod _))
    simp [prependSection, hmark]

/-- The joined runs have at every tick the chord of the token that sounds there. -/
theorem exists_sounds (h : stamps settings ticks (first :: rest) = .ok items) {tick : Nat}
    (hlt : tick < ticks) :
    ∃ token c, Sounds settings (first :: rest) tick token ∧
      ((chordRuns (lay Stamp.ticks items ticks)).flatMap Run.chords)[tick]? = some (some c) ∧
      c.same (chordOf settings first.name token.name) = true := by
  have htiles := tiles_stamps h
  obtain ⟨o, ho, hlo, hhi⟩ := htiles.exists_covering (Nat.zero_le _) hlt
  obtain ⟨k, hk⟩ := List.getElem?_of_mem ho
  obtain ⟨token, htoken, hof, -, hcovers⟩ := exists_placed h hk
  obtain ⟨c, stop, hc, -, -⟩ := Run.exists_firstAfter (chordRuns _)
    (Run.pos_of_mem_merge (pos_of_mem_occurrenceRuns htiles)) (Run.isChain_merge _)
    (hlt.trans_eq (total_chordRuns htiles).symm)
  refine ⟨token, c, ⟨k, hcovers tick hlo hhi, htoken⟩, hc, ?_⟩
  have hown : ((occurrenceRuns (lay Stamp.ticks items ticks)).flatMap Run.chords)[tick]? =
      some (some o.item.chord) := by
    have := htiles.getElem?_flatMap_replicate (f := fun o => some o.item.chord) (i := tick) ho
      (by simpa using hlo) (by simpa using hhi)
    rwa [occurrenceRuns, List.flatMap_map]
  -- Joining keeps the harmony of the tick, and every chord is one of this rendering.
  have hharmony := (Run.sameHarmony_merge _).getElem? hc hown
  obtain ⟨m, hm, hcm⟩ := List.mem_flatMap.1 (List.mem_of_getElem? hc)
  obtain ⟨r, hr, hrm⟩ := Run.exists_chord_eq_of_mem_merge hm
  obtain ⟨o', ho', rfl⟩ := List.mem_map.1 hr
  obtain ⟨k', hk'⟩ := List.getElem?_of_mem ho'
  obtain ⟨token', -, hof', -⟩ := exists_placed h hk'
  obtain rfl : c = m.chord := by simpa using (List.mem_replicate.1 hcm).2
  rw [hof.chord, ← hrm, hof'.chord] at hharmony
  rw [← hrm, hof'.chord]
  exact chordOf_same hharmony

/-- The token that sounds at a tick is the same one however it is found. -/
theorem Sounds.unique {tokens : List ResolvedToken} {tick : Nat} {token token' : ResolvedToken}
    (h : Sounds settings tokens tick token) (h' : Sounds settings tokens tick token') :
    token = token' := by
  obtain ⟨k, hk, htoken⟩ := h
  obtain ⟨k', hk', htoken'⟩ := h'
  obtain rfl := hk.unique hk'
  rw [htoken] at htoken'
  exact Option.some.inj htoken'

/-- A marked occurrence that is laid starts where a section of the pattern does. -/
theorem sectionStart_iff (h : stamps settings ticks (first :: rest) = .ok items) {u : Nat}
    (hlt : u < ticks) :
    (∃ o ∈ lay Stamp.ticks items ticks, o.item.startsSection = true ∧ o.start = u) ↔
      SectionStart settings (first :: rest) u := by
  constructor
  · rintro ⟨o, ho, hmark, rfl⟩
    obtain ⟨k, hk⟩ := List.getElem?_of_mem ho
    obtain ⟨token, htoken, hof, hstart, -⟩ := exists_placed h hk
    exact ⟨k, token, hstart, htoken, hof.startsSection.1 hmark⟩
  · rintro ⟨k, token, hstart, htoken, hmark⟩
    obtain ⟨o, ho, hlo, hhi⟩ := (tiles_stamps h).exists_covering (Nat.zero_le _) hlt
    obtain ⟨k', hk'⟩ := List.getElem?_of_mem ho
    obtain ⟨token', htoken', hof, hstart', hcovers⟩ := exists_placed h hk'
    -- The occurrence that covers the tick does not start before it.
    obtain rfl : k = k' := by
      refine Nat.le_antisymm ((hcovers u hlo hhi).le_of_starts hstart (Nat.le_refl _)) ?_
      by_contra hk
      have := hstart'.lt (fun _ _ => length?_pos) hstart (Nat.lt_of_not_le hk)
      omega
    rw [htoken] at htoken'
    cases htoken'
    exact ⟨o, ho, hof.startsSection.2 hmark, hstart'.unique hstart⟩

/-- Stamps make a timeline, which passes the checks and has the columns of the joined runs and of
the sections. -/
theorem timeline_of_stamps (h : stamps settings ticks (first :: rest) = .ok items) :
    ∃ t, timeline settings ticks (first :: rest) = .ok t ∧
      t.slots.toList.map Slot.chord =
        (chordRuns (lay Stamp.ticks items ticks)).flatMap Run.chords ∧
      t.slots.toList.map Slot.chordTicks =
        (chordRuns (lay Stamp.ticks items ticks)).flatMap (fun r => countdown r.ticks) ∧
      t.slots.toList.map Slot.sectionTicks =
        (sectionLengths (lay Stamp.ticks items ticks)).flatMap countdown := by
  have htiles := tiles_stamps h
  have hruns := total_chordRuns htiles
  obtain ⟨hsections, hpos, -⟩ := sections_tile htiles
  rw [unmarked_eq_zero h, ← sectionLengths, Nat.zero_add] at hsections
  have hlength : ((chordRuns (lay Stamp.ticks items ticks)).flatMap Run.chords).length =
      ((chordRuns (lay Stamp.ticks items ticks)).flatMap fun r => countdown r.ticks).length := by
    rw [length_flatMap Run.length_chords, length_counters Run.ticks]
  have hlength' : ((chordRuns (lay Stamp.ticks items ticks)).flatMap
      fun r => countdown r.ticks).length =
        ((sectionLengths (lay Stamp.ticks items ticks)).flatMap countdown).length := by
    rw [length_counters Run.ticks, hruns]
    exact ((length_counters id _).trans hsections).symm
  obtain ⟨t, ht, hcolumns⟩ := Timeline.ofColumns_eq_ok hlength hlength'
  have hflaw := Timeline.flaw?_eq_none_of_columns hcolumns.1 hcolumns.2.1 hcolumns.2.2
    (Run.pos_of_mem_merge (pos_of_mem_occurrenceRuns htiles)) (Run.isChain_merge _) hpos
  have hcheck : t.check = .ok () := by rw [Timeline.check, hflaw]
  exact ⟨t, Outcome.bind_eq_ok_iff.2 ⟨items, h, Outcome.bind_eq_ok_iff.2 ⟨t, ht,
    Outcome.bind_eq_ok_iff.2 ⟨(), hcheck, rfl⟩⟩⟩, hcolumns⟩

/-- A timeline with these columns says what the tokens mean. -/
theorem renders_of_columns (h : stamps settings ticks (first :: rest) = .ok items) {t : Timeline}
    (hchords : t.slots.toList.map Slot.chord =
      (chordRuns (lay Stamp.ticks items ticks)).flatMap Run.chords)
    (hcounters : t.slots.toList.map Slot.chordTicks =
      (chordRuns (lay Stamp.ticks items ticks)).flatMap fun r => countdown r.ticks)
    (hsections : t.slots.toList.map Slot.sectionTicks =
      (sectionLengths (lay Stamp.ticks items ticks)).flatMap countdown) :
    Renders settings ticks first.name (first :: rest) t where
  ticks_eq := by
    rw [Timeline.ticks_eq_length hchords, length_flatMap Run.length_chords,
      total_chordRuns (tiles_stamps h)]
  covered tick hlt := by
    obtain ⟨_, _, ⟨k, hk, -⟩, -⟩ := exists_sounds h hlt
    exact ⟨k, hk, fun k' hk' => hk.unique hk'⟩
  chord tick hlt := by
    obtain ⟨token, c, hsounds, hc, hsame⟩ := exists_sounds h hlt
    exact ⟨token, c, hsounds, Timeline.chord?_eq hchords hc, hsame⟩
  chordTicks tick hlt := by
    have htiles := tiles_stamps h
    obtain ⟨before, c', hbefore, hc', hsame⟩ := exists_sounds h hlt
    obtain ⟨c, stop, hc, hcounter, hfirst⟩ := Run.exists_firstAfter (chordRuns _)
      (Run.pos_of_mem_merge (pos_of_mem_occurrenceRuns htiles)) (Run.isChain_merge _)
      (hlt.trans_eq (total_chordRuns htiles).symm)
    rw [hc] at hc'
    cases hc'
    rw [total_chordRuns htiles] at hfirst
    refine ⟨stop, Timeline.chordTicks_eq hcounters hcounter, hfirst.congr fun u _ hu => ?_⟩
    obtain ⟨after, d, hafter, hd, hsame'⟩ := exists_sounds h hu
    have hcongr := Chord.sameHarmony_congr (Chord.sameHarmony_of_same hsame')
      (Chord.sameHarmony_of_same hsame)
    constructor
    · rintro ⟨d', hd', hne⟩
      rw [hd] at hd'
      cases hd'
      exact ⟨before, after, hbefore, hafter, hcongr ▸ hne⟩
    · rintro ⟨before', after', hbefore', hafter', hne⟩
      obtain rfl := hbefore.unique hbefore'
      obtain rfl := hafter.unique hafter'
      exact ⟨d, hd, hcongr ▸ hne⟩
  sectionTicks tick hlt := by
    obtain ⟨stop, hcounter, hfirst⟩ :=
      exists_section_firstAfter (tiles_stamps h) (unmarked_eq_zero h) hlt
    exact ⟨stop, Timeline.sectionTicks_eq hsections hcounter,
      hfirst.congr fun u _ hu => sectionStart_iff h hu⟩

/-- If there are no stamps, the repetition comes to a token without a length, and the timeline
fails with what is wrong with it. -/
theorem unplayable_of_error {e : Error}
    (h : stamps settings ticks (first :: rest) = .error e) :
    Unplayable settings ticks (first :: rest) ∧
      ∃ cause, timeline settings ticks (first :: rest) = .error (.malformed cause) := by
  obtain ⟨items, token, hall, hlt, htoken, herror⟩ := stampsWithin_eq_error h
  obtain ⟨hnone, cause, rfl⟩ := stamp_eq_error herror
  have hlen : items.length < (first :: rest).length := (List.getElem?_eq_some_iff.1 htoken).1
  have hstart := starts_of_stamps hall (.inr (Nat.le_refl _)) (Nat.le_of_lt hlen) starts_length
  refine ⟨?_, cause, Outcome.bind_eq_error_iff.2 (.inl h)⟩
  have hmod := Nat.mod_eq_of_lt hlen
  cases hitems : items.length with
  | zero =>
    rw [hitems] at htoken hstart hmod
    cases htoken
    exact ⟨0, _, first, hstart, hlt, by rw [hmod]; rfl, hnone⟩
  | succ j =>
    rw [hitems] at htoken hstart hmod
    exact ⟨j + 1, _, token, hstart, hlt, by rw [hmod]; exact htoken, hnone⟩

end

/-- Stamping a resolved pattern fails, with a malformed text, exactly if the repetition of its
tokens comes to one without a length, and otherwise gives a timeline that says at every tick what
the token there means. -/
theorem timeline_pointwise (crossover : Int) (minimize : Bool) (song : Structure)
    (first : ResolvedToken) (rest : List ResolvedToken) :
    let settings : Settings := ⟨crossover, minimize, song.ticksPerBeat⟩
    ((∃ cause, timeline settings song.ticks (first :: rest) = .error (.malformed cause)) ↔
      Unplayable settings song.ticks (first :: rest)) ∧
    (Unplayable settings song.ticks (first :: rest) ∨
      ∃ t, timeline settings song.ticks (first :: rest) = .ok t ∧
        Renders settings song.ticks first.name (first :: rest) t) := by
  intro settings
  cases h : stamps settings song.ticks (first :: rest) with
  | error e =>
    obtain ⟨hunplayable, herror⟩ := unplayable_of_error h
    exact ⟨iff_of_true herror hunplayable, .inl hunplayable⟩
  | ok items =>
    obtain ⟨t, ht, hchords, hcounters, hsections⟩ := timeline_of_stamps h
    refine ⟨iff_of_false ?_ (not_unplayable h), .inr ⟨t, ht, ?_⟩⟩
    · rintro ⟨cause, herror⟩
      rw [ht] at herror
      cases herror
    · exact renders_of_columns h hchords hcounters hsections

end Songsmith.Stamping
