import Songsmith.Midi.Score
import Songsmith.Proofs.Harmony.Octaves
import Songsmith.Proofs.Midi.Chords
import Songsmith.Proofs.Midi.Notes
import Songsmith.Proofs.Number.Bounds

/-!
# Scores in range

A message has room for a channel up to 15 and for data up to 127, and a note that is struck with
velocity zero would be a release. No event of a score asks for anything else (`NoteEvent.Within`).
Whatever the library for messages refuses, the messages that it makes are in range
(`Message.InRange`), and a library that accepts all notes in range (`MessageLibrary.AcceptsInRange`)
refuses none of them. The notes of a pattern whose numbers do not exist are left out, and velocities
are scaled so that the least of them is still heard (`Track.exists_scaleEvent`). The roots of chords
are so near the base pitch that all triads over a base pitch from 18 to 103 exist
(`ChordEvents.exists_within`).

So all that can go wrong with the events of a track is a message on a channel that does not exist or
a tick that has no position in the file (`Message.Exported`). A track has a channel that exists, and
the ticks up to `2 ^ 1000` have positions (`Position.exists_ofTick`); what is left is a note that is
left out and cannot be reported. `score_inRange` says this of whole scores.
-/

namespace Songsmith

/-- An event that lies in a song and has a note that exists; it is a release, which has no velocity,
or a strike, which has a velocity up to a greatest one. -/
structure NoteEvent.Within (ticks greatest : Int) (e : NoteEvent) : Prop where
  tick : 0 ≤ e.tick ∧ e.tick ≤ ticks
  note : 0 ≤ e.note ∧ e.note ≤ 127
  struck : e.change = .on → 1 ≤ e.velocity ∧ e.velocity ≤ greatest
  released : e.change = .off → e.velocity = 0

/-- The library refuses a note at most for its channel, its number or its velocity, if one of them
is out of range. -/
def MessageLibrary.AcceptsInRange [MessageLibrary] : Prop :=
  ∀ (time : Int) (change : NoteChange) (channel note velocity : Int),
    0 ≤ channel ∧ channel ≤ 15 → 0 ≤ note ∧ note ≤ 127 → 0 ≤ velocity ∧ velocity ≤ 127 →
      refusal? (.note time change channel note velocity) = none

/-! ## Positions -/

namespace Position

/-- The positions of a song are at most 480 times its ticks. -/
theorem exists_scale {ticksPerBeat : Nat} (h : 0 < ticksPerBeat) :
    ∃ s, scale ticksPerBeat = .ok s ∧ 0 ≤ s ∧ s ≤ 2 ^ 9 := by
  have hbeat : (1 : Rat) ≤ ((ticksPerBeat : Int) : Rat) := by exact_mod_cast h
  have hnonneg : 0 ≤ ((fileTicksPerBeat : Int) : Rat) / ((ticksPerBeat : Int) : Rat) := by
    rw [fileTicksPerBeat]
    positivity
  have hle : ((fileTicksPerBeat : Int) : Rat) / ((ticksPerBeat : Int) : Rat) ≤ 2 ^ 9 := by
    rw [div_le_iff₀ (by linarith), fileTicksPerBeat]
    push_cast at hbeat ⊢
    linarith
  obtain ⟨s, hs, hbounds⟩ := Binary64.nearest?_bounds hnonneg hle (by decide)
  have hquotient : Binary64.quotient? fileTicksPerBeat ticksPerBeat = some s := hs
  refine ⟨s, ?_, hbounds⟩
  unfold scale
  rw [hquotient]

/-- The ticks of every song that is not beyond all measure have a position in the file. -/
theorem exists_ofTick {s : Rat} (hs : 0 ≤ s) (hle : s ≤ 2 ^ 9) {tick : Int} {n : Nat}
    (hn : n + 9 < 1024) (h : 0 ≤ tick) (htick : tick ≤ 2 ^ n) :
    ∃ position, ofTick s tick = .ok position := by
  obtain ⟨x, hx, hxpos, hxle⟩ := Binary64.nearest?_bounds (x := tick) (n := n)
    (by exact_mod_cast h) (by exact_mod_cast htick) (by omega)
  have hproduct : x * s ≤ 2 ^ (n + 9) := by
    rw [pow_add]
    exact mul_le_mul hxle hle hs (by positivity)
  obtain ⟨y, hy, -⟩ := Binary64.nearest?_bounds (mul_nonneg hxpos hs) hproduct hn
  have hmul : Binary64.mul? x s = some y := hy
  refine ⟨roundHalfEven y, ?_⟩
  unfold ofTick
  rw [hx]
  simp only [hmul]

/-- A tick without a position is too large for a number on the way. -/
theorem exists_overflow_of_ofTick_eq_error {s : Rat} {tick : Int} {e : Error}
    (h : ofTick s tick = .error e) : ∃ cause, e = .overflow cause := by
  unfold ofTick at h
  split at h
  · cases h
    exact ⟨_, rfl⟩
  · split at h
    · cases h
    · cases h
      exact ⟨_, rfl⟩

end Position

/-! ## Messages -/

namespace Message

/-- A note is on the channel, its number and its velocity are in range, and a strike is heard. -/
def InRange (channel : Int) : Message → Prop
  | .note _ change c key velocity =>
    c = channel ∧ (0 ≤ key ∧ key ≤ 127) ∧ (0 ≤ velocity ∧ velocity ≤ 127) ∧
      (change = .on → 1 ≤ velocity)
  | .trackName _ | .setTempo _ | .endOfTrack => True

/-- The message that is asked for an event within the song is in range. -/
theorem inRange_of_within {ticks : Int} {e : NoteEvent} (h : e.Within ticks 127)
    (channel time : Int) :
    (note time e.change channel e.note e.velocity).InRange channel := by
  have hvelocity : 0 ≤ e.velocity ∧ e.velocity ≤ 127 := by
    cases hchange : e.change with
    | on =>
      have := h.struck hchange
      omega
    | off =>
      have := h.released hchange
      omega
  exact ⟨rfl, h.note, hvelocity, fun hon => (h.struck hon).1⟩

section
variable [MessageLibrary]

/-- Every one of the events is made into a message in range, however long it is after the one
before. -/
def Accepts (channel : Int) (events : List NoteEvent) : Prop :=
  ∀ e ∈ events, ∀ time, ∃ m, ofEvent channel time e = .ok m ∧ m.InRange channel

/-- What becomes of the events of a song of so many ticks: messages in range, or the error of a note
that is refused on a channel that does not exist, or of a tick that has no position. -/
inductive Exported (channel : Int) (scale : Rat) (ticks : Int) :
    Except Error (List Message) → Prop
  | ok {messages : List Message} : (∀ m ∈ messages, m.InRange channel) →
      Exported channel scale ticks (.ok messages)
  | refused {time note velocity : Int} {change : NoteChange} {reason : String} :
      ¬ (0 ≤ channel ∧ channel ≤ 15) →
      MessageLibrary.refusal? (.note time change channel note velocity) = some reason →
      Exported channel scale ticks (.error (.invalid (.refused reason)))
  | position {tick : Int} {e : Error} : 0 ≤ tick → tick ≤ ticks →
      Position.ofTick scale tick = .error e → Exported channel scale ticks (.error e)

/-- A message that the library makes is the one that was asked for. -/
theorem eq_of_make {m m' : Message} (h : make m = .ok m') : m' = m := by
  unfold make at h
  split at h
  · cases h
  · cases h
    rfl

/-- The tempo of a score is a message of its own kind. -/
theorem exists_of_tempo {bpm : Option Number} {m : Message} (h : tempo bpm = .ok m) :
    ∃ n, m = .setTempo n := by
  obtain ⟨_, -, h⟩ := Outcome.bind_eq_ok_iff.1 h
  obtain ⟨_, -, h⟩ := Outcome.bind_eq_ok_iff.1 h
  split at h
  · cases h
  · obtain ⟨n, -, h⟩ := Outcome.bind_eq_ok_iff.1 h
    exact ⟨n, eq_of_make h⟩

variable {channel ticks : Int} {scale : Rat} {events : List NoteEvent}

/-- Events within the song are accepted on every channel that exists. -/
theorem accepts_of_within (library : MessageLibrary.AcceptsInRange)
    (hchannel : 0 ≤ channel ∧ channel ≤ 15) (h : ∀ e ∈ events, e.Within ticks 127) :
    Accepts channel events := by
  intro e he time
  have hrange := inRange_of_within (h e he) channel time
  refine ⟨_, ?_, hrange⟩
  rw [ofEvent, make, library time e.change channel e.note e.velocity hchannel hrange.2.1
    hrange.2.2.1]

/-- The messages of events within the song, behind others in range. -/
theorem exported_ofEvents (library : MessageLibrary.AcceptsInRange)
    (h : ∀ e ∈ events, e.Within ticks 127) {last : Int} {done : List Message}
    (hdone : ∀ m ∈ done, m.InRange channel) :
    Exported channel scale ticks (ofEvents scale channel last done events) := by
  induction events generalizing last done with
  | nil => exact .ok fun m hm => hdone m (List.mem_reverse.1 hm)
  | cons e events ih =>
    rw [ofEvents]
    cases hposition : Position.ofTick scale e.tick with
    | error cause =>
      have htick := (h e List.mem_cons_self).tick
      exact .position htick.1 htick.2 hposition
    | ok position =>
      have hrange := inRange_of_within (h e List.mem_cons_self) channel (position - last)
      cases hrefusal : MessageLibrary.refusal?
          (note (position - last) e.change channel e.note e.velocity) with
      | some reason =>
        simp only [ofEvent, make, hrefusal, bind, Except.bind]
        refine .refused (fun hchannel => ?_) hrefusal
        rw [library _ _ _ _ _ hchannel hrange.2.1 hrange.2.2.1] at hrefusal
        cases hrefusal
      | none =>
        simp only [ofEvent, make, hrefusal, bind, Except.bind]
        exact ih (fun e he => h e (List.mem_cons_of_mem _ he))
          (List.forall_mem_cons.2 ⟨hrange, hdone⟩)

/-- The messages around those of the events are in range anyway. -/
theorem exported_track (library : MessageLibrary.AcceptsInRange) (name : Text)
    {leading : List Message} (hleading : ∀ m ∈ leading, m.InRange channel)
    (h : ∀ e ∈ events, e.Within ticks 127) :
    Exported channel scale ticks (track name leading scale channel events) := by
  have hevents : Exported channel scale ticks (ofEvents scale channel 0 [] events) :=
    exported_ofEvents library h (List.forall_mem_nil _)
  rw [track]
  generalize ofEvents scale channel 0 [] events = outcome at hevents
  cases hevents with
  | ok hmessages =>
    exact .ok (List.forall_mem_append.2
      ⟨List.forall_mem_append.2 ⟨List.forall_mem_cons.2 ⟨trivial, hleading⟩, hmessages⟩,
        List.forall_mem_singleton.2 trivial⟩)
  | refused hchannel hrefusal => exact .refused hchannel hrefusal
  | position hlow hhigh hposition => exact .position hlow hhigh hposition

end

end Message

/-! ## Tracks -/

/-- Giving a pitch to a wildcard changes no velocity. -/
theorem Entry.velocity_of_assign {offsets : List (Text × Int)} {e e' : Entry}
    (h : e.assign offsets = .ok e') : e'.velocity = e.velocity := by
  unfold assign at h
  split at h
  · cases h
    rfl
  · obtain ⟨_, -, rfl⟩ := Outcome.map_eq_ok_iff.1 h
    rfl

/-- The velocities of a resolved pattern are bounded as those of the pattern are. -/
theorem Pattern.velocity_le_of_assign {p resolved : Pattern} {offsets : List (Text × Int)}
    {greatest : Int} (h : p.assign offsets = .ok resolved)
    (hle : ∀ e ∈ p.entries, e.velocity ≤ greatest) :
    ∀ e ∈ resolved.entries, e.velocity ≤ greatest := by
  obtain ⟨entries, hentries, hresolved⟩ := Outcome.bind_eq_ok_iff.1 h
  rw [entries_of_ofEntries hresolved]
  intro e' he'
  obtain ⟨e, he, hassign⟩ := Outcome.exists_rel_of_mem (Outcome.mapM_eq_ok_iff.1 hentries) he'
  rw [Entry.velocity_of_assign hassign]
  exact hle e he

namespace PatternEvents

/-- An event of an entry is the strike or the release of its note, which exists. -/
theorem mem_noteEvents {p : Placement} {ticks : Int} {start : Nat} {entry : Entry}
    {e : NoteEvent} (h : e ∈ noteEvents p ticks start entry) :
    ∃ n, 0 ≤ n ∧ n ≤ 127 ∧ 1 ≤ entry.velocity ∧
      (e = ⟨start, .on, n, entry.velocity⟩ ∨
        e = ⟨min (start + entry.ticks) ticks, .off, n, 0⟩) := by
  unfold noteEvents at h
  cases hpitch : entry.pitch with
  | none => simp [hpitch] at h
  | some pitch =>
    simp only [hpitch, List.mem_ite_nil_right, List.mem_cons, List.not_mem_nil, or_false] at h
    obtain ⟨⟨hnote, hlow, hhigh⟩, he⟩ := h
    have hvelocity : 1 ≤ entry.velocity := by
      simp only [Entry.isNote, Entry.isPause, Bool.and_eq_true, Bool.not_eq_true',
        Bool.or_eq_false_iff, decide_eq_false_iff_not] at hnote
      omega
    exact ⟨_, hlow, hhigh, hvelocity, he⟩

/-- Only notes that exist are sounded, and only with a velocity. -/
theorem within_of_mem_noteEvents {p : Placement} {ticks greatest : Int} {start : Nat}
    {entry : Entry} (hstart : start ≤ ticks) (hle : entry.velocity ≤ greatest) {e : NoteEvent}
    (h : e ∈ noteEvents p ticks start entry) : e.Within ticks greatest := by
  obtain ⟨n, hlow, hhigh, hvelocity, rfl | rfl⟩ := mem_noteEvents h
  · exact ⟨⟨by simp, hstart⟩, ⟨hlow, hhigh⟩, fun _ => ⟨hvelocity, hle⟩, by simp⟩
  · exact ⟨⟨by simp only; omega, by simp only; omega⟩, ⟨hlow, hhigh⟩, by simp, fun _ => rfl⟩

/-- The events of a pattern whose velocities are bounded. -/
theorem exists_within {pattern resolved : Pattern} {offsets : List (Text × Int)} {greatest : Int}
    (h : pattern.assign offsets = .ok resolved)
    (hle : ∀ e ∈ pattern.entries, e.velocity ≤ greatest) {ticks : Nat} {p : Placement}
    (hreport : Reportable p (Cycle.lay Entry.ticks resolved.entries ticks)) :
    ∃ events, (patternEvents pattern ticks p offsets).result = .ok events ∧
      ∀ e ∈ events, e.Within ticks greatest := by
  obtain ⟨events, hevents, hperm⟩ := (result_perm_noteEvents h ticks p).1 hreport
  refine ⟨events, hevents, fun e he => ?_⟩
  obtain ⟨o, ho, he⟩ := List.mem_flatMap.1 (hperm.mem_iff.1 he)
  obtain ⟨k, hk⟩ := List.getElem?_of_mem ho
  obtain ⟨start, x, -, hx, hlt, rfl⟩ := (Cycle.getElem?_lay Entry.ticks_pos resolved.nonempty).1 hk
  exact within_of_mem_noteEvents (by simp only at hlt ⊢; omega)
    (Pattern.velocity_le_of_assign h hle x (List.mem_of_getElem? hx)) he

end PatternEvents

namespace Track

/-- A velocity that is heard in the song is heard in the file. -/
theorem exists_fileVelocity {maxVelocity : Nat} {velocity : Int} (hpos : 1 ≤ velocity)
    (hle : velocity ≤ maxVelocity) :
    ∃ v, fileVelocity maxVelocity velocity = .ok v ∧ 1 ≤ v ∧ v ≤ 127 := by
  have hmax : (0 : Rat) < ((maxVelocity : Int) : Rat) := Int.cast_pos.2 (by omega)
  have hnonneg : (0 : Rat) ≤ ((velocity * 127 : Int) : Rat) := Int.cast_nonneg (by omega)
  have hbound : ((velocity * 127 : Int) : Rat) / ((maxVelocity : Int) : Rat) ≤ 2 ^ 7 := by
    rw [div_le_iff₀ hmax]
    exact_mod_cast (by omega : velocity * 127 ≤ 2 ^ 7 * (maxVelocity : Int))
  obtain ⟨x, hx, -⟩ := Binary64.nearest?_bounds (div_nonneg hnonneg hmax.le) hbound (by decide)
  have hquotient : Binary64.quotient? (velocity * 127) maxVelocity = some x := hx
  refine ⟨max 1 (min 127 (roundHalfEven x)), ?_, by omega, by omega⟩
  unfold fileVelocity
  rw [hquotient]

/-- An event keeps within the song when it is scaled for the file. -/
theorem exists_scaleEvent {maxVelocity : Nat} {ticks : Int} {e : NoteEvent}
    (h : e.Within ticks maxVelocity) :
    ∃ e', scaleEvent maxVelocity e = .ok e' ∧ e'.Within ticks 127 := by
  obtain ⟨tick, change, note, velocity⟩ := e
  cases change with
  | on =>
    obtain ⟨hlow, hhigh⟩ := h.struck rfl
    obtain ⟨v, hv, hbounds⟩ := exists_fileVelocity hlow hhigh
    refine ⟨⟨tick, .on, note, v⟩, ?_, h.tick, h.note, fun _ => hbounds, nofun⟩
    rw [scaleEvent, hv]
    rfl
  | off => exact ⟨_, rfl, h.tick, h.note, nofun, h.released⟩

/-- How the pitches of a track are placed. -/
def placement (t : Track) (harmony : Timeline) : PatternEvents.Placement :=
  ⟨t.basePitch, if t.followChords then some harmony else none⟩

/-- The events of a track that are made into messages. -/
def fileEvents (song : Structure) (harmony : Timeline) (t : Track) : Traced (List NoteEvent) := do
  let events ← patternEvents t.pattern song.ticks (t.placement harmony) t.wildcards
  Traced.ofExcept (events.mapM (scaleEvent song.maxVelocity))

/-- A track is exported as its scaled events are. -/
theorem result_messages [MessageLibrary] (song : Structure) (harmony : Timeline) (scale : Rat)
    (t : Track) :
    (t.messages song harmony scale).result =
      (t.fileEvents song harmony).result >>= Message.track t.name [] scale t.channel := by
  simp only [messages, fileEvents, placement, Traced.result_bind, Traced.result_ofExcept]
  cases (patternEvents t.pattern song.ticks
    ⟨t.basePitch, if t.followChords = true then some harmony else none⟩ t.wildcards).result <;> rfl

/-- A track whose wildcards have been given pitches is exported in range, unless a note is left out
whose number is too long to be reported. -/
structure ExportedAs [MessageLibrary] (t : Track) (song : Structure) (harmony : Timeline)
    (resolved : Pattern) : Prop where
  reportable : PatternEvents.Reportable (t.placement harmony)
      (Cycle.lay Entry.ticks resolved.entries song.ticks) →
    ∃ events, (t.fileEvents song harmony).result = .ok events ∧
      Message.Accepts t.channel events ∧
      ∀ scale, Message.Exported t.channel scale song.ticks (t.messages song harmony scale).result
  unreportable : ¬ PatternEvents.Reportable (t.placement harmony)
      (Cycle.lay Entry.ticks resolved.entries song.ticks) →
    ∀ scale, (t.messages song harmony scale).result = .error (.invalid .integerLength)

/-- The velocities of a track are scaled, and its events made into messages. -/
theorem exportedAs [MessageLibrary] (library : MessageLibrary.AcceptsInRange) {t : Track}
    {song : Structure} {resolved : Pattern}
    (h : t.pattern.assign t.wildcards = .ok resolved)
    (hle : ∀ e ∈ t.pattern.entries, e.velocity ≤ song.maxVelocity) (harmony : Timeline) :
    t.ExportedAs song harmony resolved where
  reportable := by
    intro hreport
    obtain ⟨events, hevents, hwithin⟩ := PatternEvents.exists_within h hle hreport
    obtain ⟨scaled, hscaled⟩ := Outcome.exists_forall₂ fun e he => exists_scaleEvent (hwithin e he)
    have hok : events.mapM (scaleEvent song.maxVelocity) = .ok scaled :=
      Outcome.mapM_eq_ok_iff.2 (hscaled.imp fun _ _ => And.left)
    have hwithin' : ∀ e ∈ scaled, e.Within song.ticks 127 := fun e he => by
      obtain ⟨_, -, -, hin⟩ := Outcome.exists_rel_of_mem hscaled he
      exact hin
    have hresult : (t.fileEvents song harmony).result = .ok scaled := by
      rw [fileEvents, Traced.result_bind, hevents]
      exact hok
    have hchannel := t.channel_le
    refine ⟨scaled, hresult, Message.accepts_of_within library (by omega) hwithin', fun scale => ?_⟩
    rw [result_messages, hresult]
    exact Message.exported_track library t.name (by simp) hwithin'
  unreportable := by
    intro hlong scale
    have herror := (PatternEvents.result_perm_noteEvents h song.ticks (t.placement harmony)).2 hlong
    rw [result_messages, fileEvents, Traced.result_bind, herror]
    rfl

end Track

/-! ## Chords -/

/-- A triad spans at most a fifth. -/
theorem Chord.bounds_of_mem_triad {c : Chord} {base n : Int} (h : n ∈ c.triad base) :
    base + c.rootPitch ≤ n ∧ n ≤ base + c.rootPitch + 7 := by
  simp only [triad, List.mem_cons, List.not_mem_nil, or_false] at h
  split at h <;> omega

/-- The triads of a rendered timeline exist over every base pitch that leaves them room. -/
theorem ChordEvents.exists_within {σ : Type} [Source σ] {engine : HarmonyEngine} {song : Structure}
    {source : σ} {t : Timeline} (h : (engine.renderFrom song source).result = .ok t) {base : Int}
    (hbase : 18 ≤ base ∧ base ≤ 103) :
    ∃ events, chordEvents t base defaultVelocity = .ok events ∧
      ∀ e ∈ events, e.Within t.ticks 127 := by
  obtain ⟨first, runs, hrendered, hchords, hcounters⟩ := HarmonyEngine.exists_renderedRuns h
  refine ⟨_, chordEvents_eq_ok hrendered hchords hcounters base defaultVelocity, fun e he => ?_⟩
  obtain ⟨o, ho, he⟩ := List.mem_flatMap.1 he
  have hbounds := (tiles_timeline hrendered hcounters).bounds ho
  obtain ⟨name, hname⟩ := hrendered.chord o.item (Cycle.item_mem_of_mem_layOnce ho)
  have hroot : -18 ≤ o.item.chord.rootPitch ∧ o.item.chord.rootPitch ≤ 17 :=
    hname ▸ Stamping.rootPitch_chordOf_bounds _ first name
  have hvelocity : 1 ≤ defaultVelocity ∧ defaultVelocity ≤ 127 := by decide
  rcases List.mem_append.1 he with he | he
  · obtain ⟨n, hn, rfl⟩ := List.mem_map.1 he
    have := Chord.bounds_of_mem_triad hn
    exact ⟨by simp only; omega, by simp only; omega, fun _ => hvelocity, nofun⟩
  · obtain ⟨n, hn, rfl⟩ := List.mem_map.1 he
    have := Chord.bounds_of_mem_triad hn
    exact ⟨by simp only; omega, by simp only; omega, nofun, fun _ => rfl⟩

/-! ## Scores -/

/-- An error that a score may fail with: there is no tempo, the channel of the chords does not exist
and a note is refused on it, a tick has no position in the file, or a note that is left out cannot
be reported. -/
inductive ScoreSettings.Excuses [MessageLibrary] (settings : ScoreSettings) : Error → Prop
  | tempo {e : Error} : Message.tempo settings.bpm = .error e → settings.Excuses e
  | channel {time note velocity : Int} {change : NoteChange} {reason : String} :
      ¬ (0 ≤ settings.chordChannel ∧ settings.chordChannel ≤ 15) →
      MessageLibrary.refusal? (.note time change settings.chordChannel note velocity) =
        some reason → settings.Excuses (.invalid (.refused reason))
  | position (cause : Overflow) : settings.Excuses (.overflow cause)
  | unreportable : settings.Excuses (.invalid .integerLength)

/-- A score over a rendered timeline is in range: every event of the chords and of a track is made
into a message in range, and so are all messages of a score that can be made. A score that cannot be
made fails for another reason, and it can be made if there is a tempo, the channel of the chords
exists, the ticks are not beyond all measure, and the notes that are left out can be reported. -/
structure ScoreInRange [MessageLibrary] (settings : ScoreSettings) (song : Structure)
    (harmony : Timeline) (tracks : List Track) : Prop where
  chords : ∃ events,
    chordEvents harmony settings.chordBasePitch ChordEvents.defaultVelocity = .ok events ∧
      (∀ e ∈ events, 0 ≤ e.note ∧ e.note ≤ 127) ∧
      ∀ channel : Nat, channel ≤ 15 → Message.Accepts channel events
  exported : ∀ t ∈ tracks, ∃ resolved, t.pattern.assign t.wildcards = .ok resolved ∧
    t.ExportedAs song harmony resolved
  messages : ∀ scores, (score settings song harmony tracks).result = .ok scores →
    ∃ chords others, scores = chords :: others ∧
      (∀ m ∈ chords, m.InRange settings.chordChannel) ∧
      List.Forall₂ (fun t messages => t.channel ≤ 15 ∧ ∀ m ∈ messages, m.InRange t.channel)
        tracks others
  failure : Outcome.FailsWith settings.Excuses (score settings song harmony tracks).result
  made : (∃ tempo, Message.tempo settings.bpm = .ok tempo) →
    0 ≤ settings.chordChannel ∧ settings.chordChannel ≤ 15 →
    harmony.ticks ≤ 2 ^ 1000 → song.ticks ≤ 2 ^ 1000 →
    (∀ t ∈ tracks, ∀ resolved, t.pattern.assign t.wildcards = .ok resolved →
      PatternEvents.Reportable (t.placement harmony)
        (Cycle.lay Entry.ticks resolved.entries song.ticks)) →
    ∃ scores, (score settings song harmony tracks).result = .ok scores

section
variable [MessageLibrary] {settings : ScoreSettings} {channel : Int} {scale : Rat} {ticks : Nat}
  {outcome : Except Error (List Message)}

namespace Message

namespace Exported

/-- Messages that are made are in range. -/
theorem inRange {messages : List Message}
    (h : Exported channel scale ticks (.ok messages)) : ∀ m ∈ messages, m.InRange channel := by
  cases h with
  | ok hmessages => exact hmessages

/-- A track fails for its channel, which is then that of the chords, or for a position. -/
theorem failsWith (h : Exported channel scale ticks outcome)
    (hchannel : 0 ≤ channel ∧ channel ≤ 15 ∨ channel = settings.chordChannel) :
    Outcome.FailsWith settings.Excuses outcome := by
  cases h with
  | ok => exact .ok _
  | refused hnone hrefusal =>
    obtain rfl := hchannel.resolve_left hnone
    exact .error (.channel hnone hrefusal)
  | position _ _ hposition =>
    obtain ⟨cause, rfl⟩ := Position.exists_overflow_of_ofTick_eq_error hposition
    exact .error (.position cause)

/-- On a channel that exists the events of a song that is not beyond all measure are exported. -/
theorem exists_messages (h : Exported channel scale ticks outcome)
    (hchannel : 0 ≤ channel ∧ channel ≤ 15) (hlow : 0 ≤ scale) (hhigh : scale ≤ 2 ^ 9) {n : Nat}
    (hn : n + 9 < 1024) (hticks : ticks ≤ 2 ^ n) : ∃ messages, outcome = .ok messages := by
  cases h with
  | ok => exact ⟨_, rfl⟩
  | refused hnone => exact absurd hchannel hnone
  | @position tick _ hnonneg hle hposition =>
    have hbound : tick ≤ 2 ^ n := hle.trans (by exact_mod_cast hticks)
    obtain ⟨position, hok⟩ := Position.exists_ofTick hlow hhigh hn hnonneg hbound
    rw [hok] at hposition
    cases hposition

end Exported

end Message

end

/-! ## The tracks of a score -/

section
variable [MessageLibrary] {settings : ScoreSettings} {song : Structure} {harmony : Timeline}
  {scale : Rat}

/-- The chord events of a score are in range. -/
structure ChordsInRange (settings : ScoreSettings) (harmony : Timeline)
    (events : List NoteEvent) : Prop where
  events_eq :
    chordEvents harmony settings.chordBasePitch ChordEvents.defaultVelocity = .ok events
  within : ∀ e ∈ events, e.Within harmony.ticks 127

namespace ChordsInRange

variable {events : List NoteEvent} {tempo : Message}

/-- The chords go into the first track, behind the tempo. -/
theorem exported (library : MessageLibrary.AcceptsInRange)
    (h : ChordsInRange settings harmony events)
    (htempo : Message.tempo settings.bpm = .ok tempo) :
    Message.Exported settings.chordChannel scale harmony.ticks
      (chordTrack settings harmony scale) := by
  simp only [chordTrack, h.events_eq, htempo]
  obtain ⟨n, rfl⟩ := Message.exists_of_tempo htempo
  exact Message.exported_track library _ (List.forall_mem_singleton.2 trivial) h.within

/-- The first track fails for the tempo, its channel or a position. -/
theorem failsWith (library : MessageLibrary.AcceptsInRange)
    (h : ChordsInRange settings harmony events) :
    Outcome.FailsWith settings.Excuses (chordTrack settings harmony scale) := by
  cases htempo : Message.tempo settings.bpm with
  | error cause =>
    simp only [chordTrack, h.events_eq, htempo]
    exact .error (.tempo htempo)
  | ok tempo => exact (h.exported library htempo).failsWith (.inr rfl)

/-- The messages of the first track are in range. -/
theorem inRange (library : MessageLibrary.AcceptsInRange)
    (h : ChordsInRange settings harmony events) {messages : List Message}
    (hmessages : chordTrack settings harmony scale = .ok messages) :
    ∀ m ∈ messages, m.InRange settings.chordChannel := by
  obtain ⟨_, -, hrest⟩ := Outcome.bind_eq_ok_iff.1 hmessages
  obtain ⟨tempo, htempo, -⟩ := Outcome.bind_eq_ok_iff.1 hrest
  exact (hmessages ▸ h.exported library htempo).inRange

end ChordsInRange

namespace Track.ExportedAs

variable {t : Track} {resolved : Pattern}

/-- A track is exported, or a note that is left out cannot be reported. -/
theorem exported_or_unreportable (h : t.ExportedAs song harmony resolved) (scale : Rat) :
    Message.Exported t.channel scale song.ticks (t.messages song harmony scale).result ∨
      (t.messages song harmony scale).result = .error (.invalid .integerLength) := by
  by_cases hreport : PatternEvents.Reportable (t.placement harmony)
      (Cycle.lay Entry.ticks resolved.entries song.ticks)
  · obtain ⟨_, -, -, hexported⟩ := h.reportable hreport
    exact .inl (hexported scale)
  · exact .inr (h.unreportable hreport scale)

/-- A track fails for a position or for a report. -/
theorem failsWith (h : t.ExportedAs song harmony resolved) (scale : Rat) :
    Outcome.FailsWith settings.Excuses (t.messages song harmony scale).result := by
  rcases h.exported_or_unreportable scale with hexported | herror
  · have hchannel := t.channel_le
    exact hexported.failsWith (.inl (by omega))
  · rw [herror]
    exact .error .unreportable

/-- The messages of a track are in range. -/
theorem inRange (h : t.ExportedAs song harmony resolved) {messages : List Message}
    (hmessages : (t.messages song harmony scale).result = .ok messages) :
    ∀ m ∈ messages, m.InRange t.channel := by
  rcases h.exported_or_unreportable scale with hexported | herror
  · exact (hmessages ▸ hexported).inRange
  · rw [herror] at hmessages
    cases hmessages

/-- The messages of a track are made if its ticks have positions and its reports can be written. -/
theorem exists_messages (h : t.ExportedAs song harmony resolved)
    (hreport : PatternEvents.Reportable (t.placement harmony)
      (Cycle.lay Entry.ticks resolved.entries song.ticks))
    (hlow : 0 ≤ scale) (hhigh : scale ≤ 2 ^ 9) {n : Nat} (hn : n + 9 < 1024)
    (hticks : song.ticks ≤ 2 ^ n) :
    ∃ messages, (t.messages song harmony scale).result = .ok messages := by
  obtain ⟨_, -, -, hexported⟩ := h.reportable hreport
  have hchannel := t.channel_le
  exact (hexported scale).exists_messages (by omega) hlow hhigh hn hticks

end Track.ExportedAs

/-! ## The whole score -/

section
variable {tracks : List Track} {events : List NoteEvent}

/-- A score is made track by track. -/
theorem result_score (hscale : Position.scale song.ticksPerBeat = .ok scale) :
    (score settings song harmony tracks).result =
      chordTrack settings harmony scale >>= fun chords =>
        (tracks.mapM fun t : Track => (t.messages song harmony scale).result).map
          fun others => chords :: others := by
  simp only [score, Traced.result_bind, Traced.result_ofExcept, Traced.result_mapM,
    Traced.result_pure, hscale]
  rfl

/-- The messages of a score are in range, track by track. -/
theorem inRange_of_score (library : MessageLibrary.AcceptsInRange)
    (hscale : Position.scale song.ticksPerBeat = .ok scale)
    (hchords : ChordsInRange settings harmony events)
    (htracks : ∀ t ∈ tracks, ∃ resolved, t.ExportedAs song harmony resolved)
    {scores : List (List Message)} (h : (score settings song harmony tracks).result = .ok scores) :
    ∃ chords others, scores = chords :: others ∧
      (∀ m ∈ chords, m.InRange settings.chordChannel) ∧
      List.Forall₂ (fun t messages => t.channel ≤ 15 ∧ ∀ m ∈ messages, m.InRange t.channel)
        tracks others := by
  rw [result_score hscale] at h
  obtain ⟨chords, hfirst, h⟩ := Outcome.bind_eq_ok_iff.1 h
  obtain ⟨others, hothers, rfl⟩ := Outcome.map_eq_ok_iff.1 h
  refine ⟨chords, others, rfl, hchords.inRange library hfirst, ?_⟩
  refine ((List.forall₂_and_left tracks others).2
    ⟨htracks, Outcome.mapM_eq_ok_iff.1 hothers⟩).imp ?_
  rintro t messages ⟨⟨resolved, htrack⟩, hresult⟩
  exact ⟨t.channel_le, htrack.inRange hresult⟩

/-- A score fails for one of the reasons that are named. -/
theorem failsWith_score (library : MessageLibrary.AcceptsInRange)
    (hscale : Position.scale song.ticksPerBeat = .ok scale)
    (hchords : ChordsInRange settings harmony events)
    (htracks : ∀ t ∈ tracks, ∃ resolved, t.ExportedAs song harmony resolved) :
    Outcome.FailsWith settings.Excuses (score settings song harmony tracks).result := by
  rw [result_score hscale]
  refine (hchords.failsWith library).bind fun chords _ => .map fun e he => ?_
  obtain ⟨before, t, after, _, hsplit, -, ht⟩ := Outcome.mapM_eq_error_iff.1 he
  obtain ⟨resolved, htrack⟩ := htracks t (by simp [hsplit])
  exact htrack.failsWith scale e ht

/-- A score is made if all its tracks are. -/
theorem exists_score (hscale : Position.scale song.ticksPerBeat = .ok scale)
    (hchords : ∃ messages, chordTrack settings harmony scale = .ok messages)
    (htracks : ∀ t ∈ tracks, ∃ messages, (t.messages song harmony scale).result = .ok messages) :
    ∃ scores, (score settings song harmony tracks).result = .ok scores := by
  obtain ⟨chords, hchords⟩ := hchords
  obtain ⟨others, hothers⟩ := Outcome.exists_mapM_eq_ok htracks
  refine ⟨chords :: others, ?_⟩
  rw [result_score hscale]
  exact Outcome.bind_eq_ok_iff.2 ⟨chords, hchords, Outcome.map_eq_ok_iff.2 ⟨others, hothers, rfl⟩⟩

end

end

/-- No value of a score is out of range, whatever its tracks play and however loud the song is, as
long as the wildcards are given, no velocity is above the greatest one of the song, and the chords
have room above and below their base pitch. So a library that accepts notes in range refuses no note
of a track, and no chord on a channel that exists. -/
theorem score_inRange {σ : Type} [Source σ] [MessageLibrary]
    (library : MessageLibrary.AcceptsInRange) {engine : HarmonyEngine} {harmonySong : Structure}
    {source : σ} {harmony : Timeline}
    (rendered : (engine.renderFrom harmonySong source).result = .ok harmony)
    (settings : ScoreSettings) (song : Structure) (tracks : List Track)
    (base : 18 ≤ settings.chordBasePitch ∧ settings.chordBasePitch ≤ 103)
    (given : ∀ t ∈ tracks, ∃ resolved, t.pattern.assign t.wildcards = .ok resolved)
    (bounded : ∀ t ∈ tracks, ∀ e ∈ t.pattern.entries, e.velocity ≤ song.maxVelocity) :
    ScoreInRange settings song harmony tracks := by
  obtain ⟨events, hevents, hwithin⟩ := ChordEvents.exists_within rendered base
  obtain ⟨scale, hscale, hlow, hhigh⟩ := Position.exists_scale song.ticksPerBeat_pos
  have hchords : ChordsInRange settings harmony events := ⟨hevents, hwithin⟩
  have hresolved : ∀ t ∈ tracks, ∃ resolved, t.pattern.assign t.wildcards = .ok resolved ∧
      t.ExportedAs song harmony resolved := by
    intro t ht
    obtain ⟨resolved, hresolved⟩ := given t ht
    exact ⟨resolved, hresolved, Track.exportedAs library hresolved (bounded t ht) harmony⟩
  have htracks : ∀ t ∈ tracks, ∃ resolved, t.ExportedAs song harmony resolved := fun t ht =>
    (hresolved t ht).imp fun _ => And.right
  refine ⟨⟨events, hevents, fun e he => (hwithin e he).note,
    fun channel hchannel => Message.accepts_of_within library (by omega) hwithin⟩, hresolved,
    fun _ => inRange_of_score library hscale hchords htracks,
    failsWith_score library hscale hchords htracks, ?_⟩
  rintro ⟨tempo, htempo⟩ hchannel hharmony hsong hreport
  refine exists_score hscale
    ((hchords.exported library htempo).exists_messages hchannel hlow hhigh (by decide) hharmony)
    fun t ht => ?_
  obtain ⟨resolved, hassign, htrack⟩ := hresolved t ht
  exact htrack.exists_messages (hreport t ht resolved hassign) hlow hhigh (by decide) hsong

/-- A velocity that would be rounded to zero is heard all the same. -/
theorem score_inRange_faint :
    let _ : MessageLibrary := ⟨fun
      | .note _ _ channel note velocity =>
        if channel < 0 ∨ 15 < channel then some "channel must be in range 0..15"
        else if note < 0 ∨ 127 < note ∨ velocity < 0 ∨ 127 < velocity then
          some "data byte must be in range 0..127"
        else none
      | _ => none⟩
    let engine : HarmonyEngine :=
      ⟨[⟨"F#/1,Am/1".toList, none, none, by decide⟩], [], true, 7, by simp⟩
    let song : Structure := ⟨2, 1, 1000, by decide, by decide, by decide⟩
    let faint : Track := ⟨"faint".toList, 15,
      ⟨[⟨1, none, some ['#'], 1, false, by decide⟩], by simp⟩, 60, [(['#'], 0)], true, by decide⟩
    let t : Timeline := ⟨#[⟨some ⟨6, .major, 0, "F#".toList⟩, 1, 2⟩,
      ⟨some ⟨9, .minor, 0, "Am".toList⟩, 1, 1⟩]⟩
    MessageLibrary.AcceptsInRange ∧
      (engine.renderFrom song ([] : List Nat)).result = .ok t ∧ ScoreInRange {} song t [faint] ∧
      Track.fileVelocity song.maxVelocity 1 = .ok 1 ∧
      ∃ events, (faint.fileEvents song t).result = .ok events ∧ Message.Accepts 15 events := by
  intro _ engine song faint t
  have hlibrary : MessageLibrary.AcceptsInRange := by
    intro time change channel note velocity hchannel hnote hvelocity
    show (if _ then _ else _) = _
    rw [if_neg (by omega), if_neg (by omega)]
  have hrender : (engine.renderFrom song ([] : List Nat)).result = .ok t := by decide +kernel
  have hscore : ScoreInRange {} song t [faint] :=
    score_inRange hlibrary hrender {} song [faint] (by decide)
      (List.forall_mem_singleton.2 ⟨_, rfl⟩) (by simp [faint, song])
  obtain ⟨resolved, hresolved, hfaint⟩ := hscore.exported faint List.mem_cons_self
  cases hresolved
  obtain ⟨events, hevents, haccepts, -⟩ := hfaint.reportable (by decide +kernel)
  exact ⟨hlibrary, hrender, hscore, by decide +kernel, events, hevents, haccepts⟩

end Songsmith
