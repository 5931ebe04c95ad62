import Songsmith.Proofs.Harmony.DrawnChanges
import Songsmith.Proofs.Midi.Range
import Songsmith.Proofs.Number.Monotone

/-!
# The time of a score

The messages of a track say how long each comes after the one before. These times are differences of
positions, and each position is rounded for itself, so that up to any message they add up to the
position of its event and nothing else (`Message.Written.timed`): no rounding is carried on. They
are not negative, because events are in order (`NoteEvent.InOrder`) and a later tick has no earlier
position (`Position.ofTick_mono`). `score_timed` says so of all tracks of a score; events at the
same tick come at the same position in whichever tracks they are.
-/

namespace Songsmith

/-! ## Positions in a file -/

namespace Position

variable {scale : Rat} {tick tick' position position' : Int}

/-- A position is the tick times the scale, each rounded to a double, rounded to an integer. -/
theorem ofTick_inv (h : ofTick scale tick = .ok position) :
    ∃ x y, Binary64.nearest? tick = some x ∧ Binary64.mul? x scale = some y ∧
      position = roundHalfEven y := by
  unfold ofTick at h
  split at h
  · cases h
  · rename_i x hx
    split at h
    · rename_i y hy
      cases h
      exact ⟨x, y, hx, hy, rfl⟩
    · cases h

/-- With a scale that is not negative, no tick gets a negative position. -/
theorem nonneg_of_ofTick (hscale : 0 ≤ scale) (htick : 0 ≤ tick)
    (h : ofTick scale tick = .ok position) : 0 ≤ position := by
  obtain ⟨x, y, hx, hy, rfl⟩ := ofTick_inv h
  have hx := Binary64.nonneg_of_nearest? (Int.cast_nonneg htick) hx
  have hy := Binary64.nonneg_of_nearest? (mul_nonneg hx hscale) hy
  exact le_roundHalfEven (by exact_mod_cast hy)

/-- A later tick has no earlier position. -/
theorem ofTick_mono (hscale : 0 ≤ scale) (htick : 0 ≤ tick) (hle : tick ≤ tick')
    (h : ofTick scale tick = .ok position) (h' : ofTick scale tick' = .ok position') :
    position ≤ position' := by
  obtain ⟨x, y, hx, hy, rfl⟩ := ofTick_inv h
  obtain ⟨x', y', hx', hy', rfl⟩ := ofTick_inv h'
  have hnonneg := Binary64.nonneg_of_nearest? (Int.cast_nonneg htick) hx
  have hfactor : x ≤ x' :=
    Binary64.nearest?_mono (Int.cast_nonneg htick) (Int.cast_le.2 hle) hx hx'
  have hproduct : x * scale ≤ x' * scale := mul_le_mul_of_nonneg_right hfactor hscale
  exact roundHalfEven_mono
    (Binary64.nearest?_mono (mul_nonneg hnonneg hscale) hproduct hy hy')

end Position

/-! ## Events in order -/

/-- The ticks of events in a list do not decrease, and none is negative. -/
structure NoteEvent.InOrder (events : List NoteEvent) : Prop where
  ordered : events.Pairwise fun a b => a.tick ≤ b.tick
  nonneg : ∀ e ∈ events, 0 ≤ e.tick

/-- Whether events are in order depends on their ticks alone. -/
theorem NoteEvent.InOrder.of_ticks {events events' : List NoteEvent} (h : InOrder events)
    (hticks : events'.map tick = events.map tick) : InOrder events' := by
  have hordered : (events.map tick).Pairwise (· ≤ ·) := List.pairwise_map.2 h.ordered
  rw [← hticks] at hordered
  refine ⟨List.pairwise_map.1 hordered, fun e' he' => ?_⟩
  have hmem : e'.tick ∈ events'.map tick := List.mem_map_of_mem he'
  rw [hticks] at hmem
  obtain ⟨e, he, heq⟩ := List.mem_map.1 hmem
  rw [← heq]
  exact h.nonneg e he

/-- The events of a pattern are in order. -/
theorem PatternEvents.inOrder {pattern : Pattern} {ticks : Int} {p : Placement}
    {offsets : List (Text × Int)} {events : List NoteEvent}
    (h : (patternEvents pattern ticks p offsets).result = .ok events) :
    NoteEvent.InOrder events := by
  obtain ⟨resolved, hresolved⟩ : ∃ resolved, pattern.assign offsets = .ok resolved := by
    simp only [patternEvents, Traced.result_bind, Traced.result_ofExcept] at h
    obtain ⟨resolved, hresolved, -⟩ := Outcome.bind_eq_ok_iff.1 h
    exact ⟨resolved, hresolved⟩
  rw [result_patternEvents hresolved] at h
  obtain ⟨_, -, h⟩ := Outcome.bind_eq_ok_iff.1 h
  cases h
  have hbracketed := bracketed_sorted (p := p)
    (Cycle.tiles_lay Entry.ticks_pos resolved.nonempty ticks.toNat) rfl
  exact ⟨hbracketed.ordered, fun e he => (hbracketed.bounded e he).1⟩

/-- Scaling velocities moves no event. -/
theorem Track.tick_of_scaleEvent {maxVelocity : Nat} {e e' : NoteEvent}
    (h : scaleEvent maxVelocity e = .ok e') : e'.tick = e.tick := by
  unfold scaleEvent at h
  split at h
  · obtain ⟨_, -, rfl⟩ := Outcome.map_eq_ok_iff.1 h
    rfl
  · cases h
    rfl

/-- The events of a track are in order, whatever kind of track it is. -/
theorem Track.inOrder_fileEvents {t : Track} {song : Structure} {harmony : Timeline}
    {events : List NoteEvent} (h : (t.fileEvents song harmony).result = .ok events) :
    NoteEvent.InOrder events := by
  rw [fileEvents, Traced.result_bind] at h
  obtain ⟨played, hplayed, h⟩ := Outcome.bind_eq_ok_iff.1 h
  refine (PatternEvents.inOrder hplayed).of_ticks ?_
  rw [← List.forall₂_eq_eq_eq, List.forall₂_map_left_iff, List.forall₂_map_right_iff]
  exact ((Outcome.mapM_eq_ok_iff.1 h).imp fun _ _ => tick_of_scaleEvent).flip

/-- The events of a chord run are at its start and at its end. -/
theorem ChordEvents.tick_of_mem_runEvents {base velocity : Int} {r : ChordRun}
    {events : List NoteEvent} (h : runEvents base velocity r = .ok events) {e : NoteEvent}
    (he : e ∈ events) : e.tick = r.tick ∨ e.tick = r.tick + r.length := by
  unfold runEvents at h
  split at h
  · cases h
    cases he
  · obtain ⟨pitches, -, rfl⟩ := Outcome.map_eq_ok_iff.1 h
    rcases List.mem_append.1 he with he | he
    · obtain ⟨_, -, rfl⟩ := List.mem_map.1 he
      exact .inl rfl
    · obtain ⟨_, -, rfl⟩ := List.mem_map.1 he
      exact .inr rfl

/-- The chords of a timeline are in order, if no counter leads back. -/
theorem ChordEvents.inOrder {t : Timeline} {base velocity : Int} {events : List NoteEvent}
    (hcheck : t.check = .ok ()) (h : chordEvents t base velocity = .ok events) :
    NoteEvent.InOrder events := by
  obtain ⟨⟨runs, hruns⟩, -⟩ :=
    (Timeline.flaw?_eq_none_iff t).1 ((Timeline.check_eq_ok_iff t).1 hcheck)
  obtain ⟨found, hfound, hrest⟩ := Outcome.bind_eq_ok_iff.1 h
  obtain ⟨made, hmade, hevents⟩ := Outcome.bind_eq_ok_iff.1 hrest
  rw [hruns.runsAgree.runs_eq] at hfound
  obtain rfl := Except.ok.inj hfound
  obtain rfl : made.flatten.mergeSort (fun a b => a.tick ≤ b.tick) = events :=
    Except.ok.inj hevents
  refine ⟨?_, fun e he => ?_⟩
  · have hsorted : (made.flatten.mergeSort fun a b => a.tick ≤ b.tick).Pairwise
        fun a b => decide (a.tick ≤ b.tick) = true :=
      List.pairwise_mergeSort (fun a b c hab hbc => by simp only [decide_eq_true_eq] at *; omega)
        (fun a b => by simp only [Bool.or_eq_true, decide_eq_true_eq]; omega) _
    exact hsorted.imp of_decide_eq_true
  · obtain ⟨es, hes, he⟩ := List.mem_flatten.1 (List.mem_mergeSort.1 he)
    obtain ⟨r, hr, hrun⟩ := Outcome.exists_rel_of_mem (Outcome.mapM_eq_ok_iff.1 hmade) hes
    obtain ⟨o, -, rfl⟩ := List.mem_map.1 hr
    rcases tick_of_mem_runEvents hrun he with htick | htick
    · rw [htick]
      exact Int.natCast_nonneg _
    · rw [htick]
      exact Int.natCast_nonneg (_ + _)

/-! ## Messages -/

namespace Message

/-- The time since the message before. -/
def time : Message → Int
  | .note time .. => time
  | .trackName _ | .setTempo _ | .endOfTrack => 0

/-- A note is struck or released. -/
def isNote : Message → Bool
  | .note .. => true
  | .trackName _ | .setTempo _ | .endOfTrack => false

/-- The message says what happens to which note, and how loud, as the event does. -/
def Says (e : NoteEvent) : Message → Prop
  | .note _ change _ key velocity => change = e.change ∧ key = e.note ∧ velocity = e.velocity
  | .trackName _ | .setTempo _ | .endOfTrack => False

/-- The notes among messages, each with the sum of the times up to and including its own, if `now`
is the sum of those before. -/
def onsets : (now : Int) → List Message → List (Int × Message)
  | _, [] => []
  | now, m :: rest =>
    if m.isNote then (now + m.time, m) :: onsets (now + m.time) rest
    else onsets (now + m.time) rest

/-- The notes among the messages of a track are those of the events, one for one and in order, and
the times up to each of them add up to the position of its event. -/
def Timed (scale : Rat) (events : List NoteEvent) (messages : List Message) : Prop :=
  List.Forall₂ (fun e onset => Says e onset.2 ∧ Position.ofTick scale e.tick = .ok onset.1)
    events (onsets 0 messages)

/-- No message of a score comes before the one that it follows in its track. -/
def Forward (scores : List (List Message)) : Prop :=
  ∀ messages ∈ scores, ∀ m ∈ messages, 0 ≤ m.time

/-- What is written for events, the one before them having been at the position `last`. -/
inductive Written [MessageLibrary] (scale : Rat) (channel : Int) :
    (last : Int) → List NoteEvent → List Message → Prop
  | nil {last : Int} : Written scale channel last [] []
  | cons {last position : Int} {e : NoteEvent} {m : Message} {events : List NoteEvent}
      {messages : List Message} : Position.ofTick scale e.tick = .ok position →
      ofEvent channel (position - last) e = .ok m → Written scale channel position events messages →
      Written scale channel last (e :: events) (m :: messages)

section
variable {scale : Rat} {channel last : Int} {events : List NoteEvent} {messages : List Message}

/-- Only notes take time. -/
theorem time_eq_zero {m : Message} (h : m.isNote = false) : m.time = 0 := by
  cases m with
  | note => cases h
  | trackName | setTempo | endOfTrack => rfl

/-- Other messages take no time. -/
theorem onsets_filter (now : Int) (messages : List Message) :
    onsets now (messages.filter isNote) = onsets now messages := by
  induction messages generalizing now with
  | nil => rfl
  | cons m rest ih =>
    cases hm : m.isNote with
    | true => simp [onsets, hm, ih]
    | false => simp [onsets, hm, ih, time_eq_zero hm]

variable [MessageLibrary]

/-- The message of an event says what the event does. -/
theorem ofEvent_inv {time : Int} {e : NoteEvent} {m : Message}
    (h : ofEvent channel time e = .ok m) : m.isNote = true ∧ m.time = time ∧ Says e m := by
  rw [eq_of_make h]
  exact ⟨rfl, rfl, rfl, rfl, rfl⟩

/-- The messages of events are written behind those that are there. -/
theorem exists_written {done : List Message}
    (h : ofEvents scale channel last done events = .ok messages) :
    ∃ notes, messages = done.reverse ++ notes ∧ Written scale channel last events notes := by
  induction events generalizing last done with
  | nil =>
    cases h
    exact ⟨[], (List.append_nil _).symm, .nil⟩
  | cons e events ih =>
    obtain ⟨position, hposition, h⟩ := Outcome.bind_eq_ok_iff.1 h
    obtain ⟨m, hm, h⟩ := Outcome.bind_eq_ok_iff.1 h
    obtain ⟨notes, rfl, hnotes⟩ := ih h
    exact ⟨m :: notes, by simp, .cons hposition hm hnotes⟩

namespace Written

/-- Only notes are written for events. -/
theorem isNote (h : Written scale channel last events messages) :
    ∀ m ∈ messages, m.isNote = true := by
  induction h with
  | nil => exact List.forall_mem_nil _
  | cons _ hm _ ih => exact List.forall_mem_cons.2 ⟨(ofEvent_inv hm).1, ih⟩

/-- The times add up to positions: each time takes away what the sum so far has added. -/
theorem timed (h : Written scale channel last events messages) :
    List.Forall₂ (fun e onset => Says e onset.2 ∧ Position.ofTick scale e.tick = .ok onset.1)
      events (onsets last messages) := by
  induction h with
  | nil => exact .nil
  | @cons last position e m events messages hposition hm _ ih =>
    obtain ⟨hnote, htime, hsaid⟩ := ofEvent_inv hm
    have hsum : last + m.time = position := by rw [htime]; omega
    rw [onsets, if_pos hnote, hsum]
    exact .cons ⟨hsaid, hposition⟩ ih

/-- No time is negative, if the events are in order and the first one is not before `last`. -/
theorem time_nonneg (h : Written scale channel last events messages) (hscale : 0 ≤ scale)
    (hevents : NoteEvent.InOrder events)
    (hlast : ∀ e ∈ events, ∀ position, Position.ofTick scale e.tick = .ok position →
      last ≤ position) : ∀ m ∈ messages, 0 ≤ m.time := by
  induction h with
  | nil => exact List.forall_mem_nil _
  | @cons last position e m events messages hposition hm _ ih =>
    obtain ⟨hbefore, hordered⟩ := List.pairwise_cons.1 hevents.ordered
    obtain ⟨hfirst, hnonneg⟩ := List.forall_mem_cons.1 hevents.nonneg
    refine List.forall_mem_cons.2 ⟨?_, ih ⟨hordered, hnonneg⟩ fun e' he' position' hposition' => ?_⟩
    · have := hlast e List.mem_cons_self position hposition
      rw [(ofEvent_inv hm).2.1]
      omega
    · exact Position.ofTick_mono hscale hfirst (hbefore e' he') hposition hposition'

end Written

/-- The notes of a track are what is written for its events. -/
theorem written_of_track {name : Text} {leading : List Message}
    (hleading : ∀ m ∈ leading, m.isNote = false)
    (h : track name leading scale channel events = .ok messages) :
    Written scale channel 0 events (messages.filter isNote) := by
  obtain ⟨notes, hnotes, rfl⟩ := Outcome.map_eq_ok_iff.1 h
  obtain ⟨notes, rfl, hwritten⟩ := exists_written hnotes
  have hnone : leading.filter isNote = [] :=
    List.filter_eq_nil_iff.2 fun m hm => by rw [hleading m hm]; exact Bool.false_ne_true
  have hall : notes.filter isNote = notes := List.filter_eq_self.2 hwritten.isNote
  simpa [List.filter_cons, hnone, hall, isNote] using hwritten

/-- The times of a track add up to the positions of its events. -/
theorem timed_of_track {name : Text} {leading : List Message}
    (hleading : ∀ m ∈ leading, m.isNote = false)
    (h : track name leading scale channel events = .ok messages) :
    Timed scale events messages := by
  have htimed := (written_of_track hleading h).timed
  rwa [onsets_filter] at htimed

/-- No time in a track is negative if its events are in order. -/
theorem time_nonneg_of_track {name : Text} {leading : List Message}
    (hleading : ∀ m ∈ leading, m.isNote = false)
    (h : track name leading scale channel events = .ok messages) (hscale : 0 ≤ scale)
    (hevents : NoteEvent.InOrder events) : ∀ m ∈ messages, 0 ≤ m.time := by
  have hnotes := (written_of_track hleading h).time_nonneg hscale hevents fun e he position =>
    Position.nonneg_of_ofTick hscale (hevents.nonneg e he)
  intro m hm
  cases hnote : m.isNote with
  | true => exact hnotes m (List.mem_filter.2 ⟨hm, hnote⟩)
  | false => rw [time_eq_zero hnote]

end

end Message

/-! ## Scores -/

/-- The events of the tracks of a score: the chords, and what every track plays, with velocities
scaled for the file. -/
def scoreEvents (settings : ScoreSettings) (song : Structure) (harmony : Timeline)
    (tracks : List Track) : Except Error (List (List NoteEvent)) := do
  let chords ← chordEvents harmony settings.chordBasePitch ChordEvents.defaultVelocity
  let others ← tracks.mapM fun t => (t.fileEvents song harmony).result
  return chords :: others

/-- The event is one of those of a track, and its message comes at the position. -/
def ComesAt (sources : List (List NoteEvent)) (scores : List (List Message)) (e : NoteEvent)
    (position : Int) : Prop :=
  ∃ (k i : Nat) (events : List NoteEvent) (messages : List Message) (m : Message),
    sources[k]? = some events ∧ scores[k]? = some messages ∧ events[i]? = some e ∧
      (Message.onsets 0 messages)[i]? = some (position, m)

/-- The message of an event comes at the position of its tick. -/
theorem ComesAt.ofTick_eq {scale : Rat} {sources : List (List NoteEvent)}
    {scores : List (List Message)} (h : List.Forall₂ (Message.Timed scale) sources scores)
    {e : NoteEvent} {position : Int} (he : ComesAt sources scores e position) :
    Position.ofTick scale e.tick = .ok position := by
  obtain ⟨k, i, events, messages, m, hevents, hmessages, hi, honset⟩ := he
  have htimed : Message.Timed scale events messages := Outcome.rel_of_getElem? h hevents hmessages
  exact (Outcome.rel_of_getElem? htimed hi honset).2

section
variable [MessageLibrary] {settings : ScoreSettings} {song : Structure} {harmony : Timeline}
  {scale : Rat}

/-- The first track holds the chords. -/
theorem exists_chords {messages : List Message}
    (h : chordTrack settings harmony scale = .ok messages) :
    ∃ events, chordEvents harmony settings.chordBasePitch ChordEvents.defaultVelocity = .ok events ∧
      Message.Timed scale events messages ∧
      (0 ≤ scale → NoteEvent.InOrder events → ∀ m ∈ messages, 0 ≤ m.time) := by
  obtain ⟨events, hevents, h⟩ := Outcome.bind_eq_ok_iff.1 h
  obtain ⟨tempo, htempo, htrack⟩ := Outcome.bind_eq_ok_iff.1 h
  obtain ⟨n, rfl⟩ := Message.exists_of_tempo htempo
  have hleading : ∀ m ∈ [Message.setTempo n], m.isNote = false := List.forall_mem_singleton.2 rfl
  exact ⟨events, hevents, Message.timed_of_track hleading htrack,
    Message.time_nonneg_of_track hleading htrack⟩

/-- A track holds what it plays. -/
theorem Track.exists_events {t : Track} {messages : List Message}
    (h : (t.messages song harmony scale).result = .ok messages) :
    ∃ events, (t.fileEvents song harmony).result = .ok events ∧
      Message.Timed scale events messages ∧ (0 ≤ scale → ∀ m ∈ messages, 0 ≤ m.time) := by
  rw [result_messages] at h
  obtain ⟨events, hevents, htrack⟩ := Outcome.bind_eq_ok_iff.1 h
  have hleading := List.forall_mem_nil fun m : Message => m.isNote = false
  exact ⟨events, hevents, Message.timed_of_track hleading htrack, fun hscale =>
    Message.time_nonneg_of_track hleading htrack hscale (inOrder_fileEvents hevents)⟩

/-- What the tracks play is found in their messages. -/
theorem exists_sources {tracks : List Track} {others : List (List Message)}
    (h : List.Forall₂ (fun t messages => (t.messages song harmony scale).result = .ok messages)
      tracks others) :
    ∃ sources, (tracks.mapM fun t => (t.fileEvents song harmony).result) = .ok sources ∧
      List.Forall₂ (Message.Timed scale) sources others := by
  simp only [Outcome.mapM_eq_ok_iff]
  induction h with
  | nil => exact ⟨[], .nil, .nil⟩
  | cons ht _ ih =>
    obtain ⟨events, hevents, htimed, -⟩ := Track.exists_events ht
    obtain ⟨sources, hsources, hothers⟩ := ih
    exact ⟨events :: sources, .cons hevents hsources, .cons htimed hothers⟩

end

/-- The messages of every track of a score are those of its events, in their order, and the times up
to the message of an event add up to the position of its tick, in whichever track it is. No time in
a track of a pattern is negative, and none in that of the chords, if the timeline is consistent or
what an engine renders. -/
theorem score_timed [MessageLibrary] {settings : ScoreSettings} {song : Structure}
    {harmony : Timeline} {tracks : List Track} {scores : List (List Message)}
    (h : (score settings song harmony tracks).result = .ok scores) :
    ∃ scale sources, Position.scale song.ticksPerBeat = .ok scale ∧
      scoreEvents settings song harmony tracks = .ok sources ∧
      List.Forall₂ (Message.Timed scale) sources scores ∧
      (∀ e e' position position', ComesAt sources scores e position →
        ComesAt sources scores e' position' → e.tick = e'.tick → position = position') ∧
      Message.Forward scores.tail ∧ (harmony.check = .ok () → Message.Forward scores) ∧
      ∀ (σ : Type) [Source σ] (engine : HarmonyEngine) (source : σ),
        (engine.renderFrom song source).result = .ok harmony → Message.Forward scores := by
  obtain ⟨scale, hscale, hnonneg, -⟩ := Position.exists_scale song.ticksPerBeat_pos
  rw [result_score hscale] at h
  obtain ⟨chords, hchords, h⟩ := Outcome.bind_eq_ok_iff.1 h
  obtain ⟨others, hothers, rfl⟩ := Outcome.map_eq_ok_iff.1 h
  rw [Outcome.mapM_eq_ok_iff] at hothers
  obtain ⟨events, hevents, htimed, hforward⟩ := exists_chords hchords
  obtain ⟨sources, hsources, htracks⟩ := exists_sources hothers
  have hall : List.Forall₂ (Message.Timed scale) (events :: sources) (chords :: others) :=
    .cons htimed htracks
  have hlater : Message.Forward others := by
    intro messages hmessages
    obtain ⟨t, -, ht⟩ := Outcome.exists_rel_of_mem hothers hmessages
    obtain ⟨_, -, -, hforward⟩ := Track.exists_events ht
    exact hforward hnonneg
  have hconsistent : harmony.check = .ok () → Message.Forward (chords :: others) := fun hcheck =>
    List.forall_mem_cons.2 ⟨hforward hnonneg (ChordEvents.inOrder hcheck hevents), hlater⟩
  refine ⟨scale, events :: sources, hscale, ?_, hall, ?_, hlater, hconsistent,
    fun σ _ engine source hrender => hconsistent (HarmonyEngine.check_of_renderFrom hrender)⟩
  · exact Outcome.bind_eq_ok_iff.2 ⟨_, hevents, Outcome.bind_eq_ok_iff.2 ⟨_, hsources, rfl⟩⟩
  · intro e e' position position' he he' htick
    have hposition := he.ofTick_eq hall
    rw [htick, he'.ofTick_eq hall] at hposition
    exact (Except.ok.inj hposition).symm

/-- Notes of the 64th part of a beat, each seven and a half ticks of the file long: three of them
end with the chord that is as long as all three. -/
theorem score_timed_halves :
    let _ : MessageLibrary := ⟨fun _ => none⟩
    let song : Structure := ⟨3, 64, 127, by decide, by decide, by decide⟩
    let c : Chord := ⟨0, .major, 0, ['C']⟩
    let t : Timeline := ⟨#[⟨c, 3, 3⟩, ⟨c, 2, 2⟩, ⟨c, 1, 1⟩]⟩
    let melody : Track := ⟨"melody".toList, 1,
      ⟨[⟨1, some 0, none, 100, false, by decide⟩], by simp⟩, 60, [], false, by decide⟩
    let settings : ScoreSettings := ⟨some (.real 120.0), 0, 60⟩
    let chords : List Message := [.trackName "chords".toList, .setTempo 500000,
      .note 0 .on 0 60 90, .note 0 .on 0 64 90, .note 0 .on 0 67 90,
      .note 22 .off 0 60 0, .note 0 .off 0 64 0, .note 0 .off 0 67 0, .endOfTrack]
    let notes : List Message := [.trackName "melody".toList,
      .note 0 .on 1 60 100, .note 8 .off 1 60 0, .note 0 .on 1 60 100, .note 7 .off 1 60 0,
      .note 0 .on 1 60 100, .note 7 .off 1 60 0, .endOfTrack]
    t.check = .ok () ∧ (score settings song t [melody]).result = .ok [chords, notes] ∧
      ∃ scale sources, Position.scale song.ticksPerBeat = .ok scale ∧
        scoreEvents settings song t [melody] = .ok sources ∧
        List.Forall₂ (Message.Timed scale) sources [chords, notes] ∧
        Message.Forward [chords, notes] := by
  intro _ song c t melody settings chords notes
  have hcheck : t.check = .ok () := by decide
  have hscale : Position.scale song.ticksPerBeat = .ok (15 / 2) := by decide +kernel
  have htempo : Message.tempo settings.bpm = .ok (.setTempo 500000) := by decide +kernel
  let triad : List NoteEvent := [⟨0, .on, 60, 90⟩, ⟨0, .on, 64, 90⟩, ⟨0, .on, 67, 90⟩,
    ⟨3, .off, 60, 0⟩, ⟨3, .off, 64, 0⟩, ⟨3, .off, 67, 0⟩]
  have hstruck : chordEvents t settings.chordBasePitch ChordEvents.defaultVelocity =
      .ok triad := by
    have hruns : t.runs = .ok [⟨0, c, 3⟩] := by decide +kernel
    have hmade : [(⟨0, c, 3⟩ : ChordRun)].mapM
        (ChordEvents.runEvents settings.chordBasePitch ChordEvents.defaultVelocity) =
          .ok [triad] := rfl
    exact Outcome.bind_eq_ok_iff.2 ⟨_, hruns, Outcome.bind_eq_ok_iff.2 ⟨_, hmade,
      congrArg Except.ok (List.mergeSort_of_pairwise (by decide))⟩⟩
  have hplayed : (patternEvents melody.pattern song.ticks (melody.placement t) []).result = .ok
      [⟨0, .on, 60, 100⟩, ⟨1, .off, 60, 0⟩, ⟨1, .on, 60, 100⟩, ⟨2, .off, 60, 0⟩,
        ⟨2, .on, 60, 100⟩, ⟨3, .off, 60, 0⟩] := by
    have hassign : melody.pattern.assign [] = .ok melody.pattern := rfl
    -- The events are in order as they are caused.
    have hsorted : PatternEvents.sorted (melody.placement t) 3
        (Cycle.lay Entry.ticks melody.pattern.entries 3) =
          PatternEvents.causedEvents (melody.placement t) 3
            (Cycle.lay Entry.ticks melody.pattern.entries 3) :=
      List.mergeSort_of_pairwise (by decide +kernel)
    rw [PatternEvents.result_patternEvents hassign]
    refine Outcome.bind_eq_ok_iff.2 ⟨(), by decide +kernel, ?_⟩
    refine (congrArg (fun events => Except.ok (events.map PhasedEvent.event)) hsorted).trans ?_
    decide +kernel
  have hchords : chordTrack settings t (15 / 2) = .ok chords := by
    rw [chordTrack, hstruck, htempo]
    decide +kernel
  have hnotes : (melody.messages song t (15 / 2)).result = .ok notes := by
    rw [Track.result_messages, Track.fileEvents, Traced.result_bind, hplayed]
    decide +kernel
  have hscore : (score settings song t [melody]).result = .ok [chords, notes] := by
    rw [result_score hscale]
    exact Outcome.bind_eq_ok_iff.2 ⟨chords, hchords, Outcome.map_eq_ok_iff.2
      ⟨[notes], Outcome.mapM_eq_ok_iff.2 (.cons hnotes .nil), rfl⟩⟩
  obtain ⟨scale, sources, hscale, hsources, htimed, -, -, hforward, -⟩ := score_timed hscore
  exact ⟨hcheck, hscore, scale, sources, hscale, hsources, htimed, hforward hcheck⟩

end Songsmith
