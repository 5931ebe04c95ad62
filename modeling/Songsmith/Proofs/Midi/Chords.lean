import Songsmith.Proofs.Harmony.Dump
import Songsmith.Proofs.Midi.Bracketing

/-!
# Sustained chords

The chord track strikes the triad of every run at its first tick and releases it where the run ends.
The runs tile the song, so that the events of one run end no later than those of the next one begin,
and the events are in order as they are made (`ChordEvents.pairwise_sustained`): sorting leaves them
alone, and a release stands before the strike of the same note by the next chord. From this
`chordEvents_bracketed` concludes that the notes of a rendered timeline are struck and released in
turn, and that what sounds at any tick (`sounding`) is the triad of the chord there.
-/

namespace Songsmith

/-! ## What sounds -/

/-- The notes that sound after an event, if `notes` sound before it. -/
def NoteEvent.soundsAfter (notes : List Int) (e : NoteEvent) : List Int :=
  match e.change with
  | .on => notes ++ [e.note]
  | .off => notes.erase e.note

/-- The notes that sound after events, in the order in which they were struck. -/
def sounding (events : List NoteEvent) : List Int := events.foldl NoteEvent.soundsAfter []

/-- Notes that are struck sound after those that sounded before. -/
theorem foldl_soundsAfter_on (tick velocity : Int) (notes struck : List Int) :
    (struck.map fun n => (⟨tick, .on, n, velocity⟩ : NoteEvent)).foldl NoteEvent.soundsAfter notes =
      notes ++ struck := by
  induction struck generalizing notes with
  | nil => rw [List.map_nil, List.foldl_nil, List.append_nil]
  | cons n struck ih =>
    rw [List.map_cons, List.foldl_cons, ih]
    exact List.append_assoc ..

/-- When all that sounds is released, nothing sounds. -/
theorem foldl_soundsAfter_off (tick : Int) (notes : List Int) :
    (notes.map fun n => (⟨tick, .off, n, 0⟩ : NoteEvent)).foldl NoteEvent.soundsAfter notes =
      [] := by
  induction notes with
  | nil => rfl
  | cons n notes ih =>
    have herase : NoteEvent.soundsAfter (n :: notes) ⟨tick, .off, n, 0⟩ = notes :=
      List.erase_cons_head ..
    rw [List.map_cons, List.foldl_cons, herase, ih]

/-! ## Triads -/

namespace Chord

/-- The pitches of a chord of one of the two named qualities, over a base pitch. -/
def triad (c : Chord) (base : Int) : List Int :=
  let root := base + c.rootPitch
  [root, root + (if c.quality = .minor then 3 else 4), root + 7]

/-- A chord with a name has pitches: those of its triad. -/
theorem Named.pitches_eq {c : Chord} (h : c.Named) (base : Int) :
    c.pitches base = .ok (c.triad base) := by
  rcases h.quality with hquality | hquality
  · simp [pitches, triad, hquality, Quality.intervals, Except.map]
  · simp [pitches, triad, hquality, Quality.intervals, Except.map]

/-- The three notes of a triad differ. -/
theorem nodup_triad (c : Chord) (base : Int) : (c.triad base).Nodup := by
  unfold triad
  split <;> simp

end Chord

namespace ChordEvents

section
variable (base velocity : Int)

/-- The triad of a run is struck at its first tick. -/
def strikes (o : Occurrence Run) : List NoteEvent :=
  (o.item.chord.triad base).map fun n => ⟨o.start, .on, n, velocity⟩

/-- The triad of a run is released where the run ends. -/
def releases (o : Occurrence Run) : List NoteEvent :=
  (o.item.chord.triad base).map fun n => ⟨o.start + o.ticks, .off, n, 0⟩

/-- The events of a run. -/
def sustained (o : Occurrence Run) : List NoteEvent := strikes base velocity o ++ releases base o

end

/-- The events of the chords of a timeline are in order, in the song and in turn, and at every tick
the three pitches of the chord there sound and nothing else. -/
structure Sustained (t : Timeline) (base : Int) (events : List NoteEvent) : Prop where
  ordered : events.Pairwise fun a b => a.tick ≤ b.tick
  bounded : ∀ e ∈ events, 0 ≤ e.tick ∧ e.tick ≤ t.ticks
  alternates : ∀ n, Alternates (events.filter fun e => e.note = n)
  sounding : ∀ tick : Nat, tick < t.ticks → ∃ c pitches, t.chord? tick = some c ∧
    c.pitches base = .ok pitches ∧ pitches.length = 3 ∧
    sounding (events.filter fun e => e.tick ≤ tick) = pitches

section
variable {base velocity : Int} {start stop : Nat} {os : List (Occurrence Run)} {o : Occurrence Run}

/-! ## One run -/

/-- Notes are struck where the run starts. -/
theorem tick_of_mem_strikes {e : NoteEvent} (h : e ∈ strikes base velocity o) :
    e.tick = o.start := by
  obtain ⟨n, -, rfl⟩ := List.mem_map.1 h
  rfl

/-- Notes are released where the run ends. -/
theorem tick_of_mem_releases {e : NoteEvent} (h : e ∈ releases base o) :
    e.tick = o.start + o.ticks := by
  obtain ⟨n, -, rfl⟩ := List.mem_map.1 h
  rfl

/-- The events of a run are not outside of it. -/
theorem bounds_of_mem_sustained {e : NoteEvent} (h : e ∈ sustained base velocity o) :
    o.start ≤ e.tick ∧ e.tick ≤ o.start + o.ticks := by
  rcases List.mem_append.1 h with h | h
  · have := tick_of_mem_strikes h
    omega
  · have := tick_of_mem_releases h
    omega

/-- The events of one note number among those made from different notes. -/
theorem filter_note_map {notes : List Int} (h : notes.Nodup) (event : Int → NoteEvent)
    (hevent : ∀ n, (event n).note = n) (n : Int) :
    (notes.map event).filter (fun e => e.note = n) = if n ∈ notes then [event n] else [] := by
  induction notes with
  | nil => rfl
  | cons m notes ih =>
    obtain ⟨hm, hnodup⟩ := List.nodup_cons.1 h
    rw [List.map_cons, List.filter_cons, hevent, ih hnodup]
    by_cases hmn : m = n
    · subst hmn
      simp [hm]
    · simp [hmn, Ne.symm hmn]

/-- Of each note of the triad, a run has one strike and then one release. -/
theorem sustained_filter (o : Occurrence Run) (n : Int) :
    (sustained base velocity o).filter (fun e => e.note = n) =
      if n ∈ o.item.chord.triad base then
        [⟨o.start, .on, n, velocity⟩, ⟨o.start + o.ticks, .off, n, 0⟩]
      else [] := by
  have hnodup := o.item.chord.nodup_triad base
  rw [sustained, strikes, releases, List.filter_append,
    filter_note_map hnodup _ fun _ => rfl, filter_note_map hnodup _ fun _ => rfl]
  split <;> rfl

/-- After the events of a run nothing sounds. -/
theorem foldl_sustained (o : Occurrence Run) :
    (sustained base velocity o).foldl NoteEvent.soundsAfter [] = [] := by
  rw [sustained, List.foldl_append, strikes, foldl_soundsAfter_on, List.nil_append, releases,
    foldl_soundsAfter_off]

/-! ## Runs that tile a song -/

/-- The events of runs that tile a stretch are not outside of it. -/
theorem bounds_of_mem_flatMap (h : Tiles start stop os) {e : NoteEvent}
    (he : e ∈ os.flatMap (sustained base velocity)) : start ≤ e.tick ∧ e.tick ≤ stop := by
  obtain ⟨o, ho, he⟩ := List.mem_flatMap.1 he
  have := h.bounds ho
  have := bounds_of_mem_sustained he
  omega

/-- The events of runs are in order as they are made. -/
theorem pairwise_sustained (h : Tiles start stop os) :
    (os.flatMap (sustained base velocity)).Pairwise fun a b => a.tick ≤ b.tick := by
  induction h with
  | nil => exact .nil
  | @cons o os stop hpos htail ih =>
    rw [List.flatMap_cons, List.pairwise_append]
    refine ⟨?_, ih, fun a ha b hb => ?_⟩
    · rw [sustained, List.pairwise_append]
      refine ⟨List.pairwise_of_forall_mem_list fun a ha b hb => ?_,
        List.pairwise_of_forall_mem_list fun a ha b hb => ?_, fun a ha b hb => ?_⟩
      · rw [tick_of_mem_strikes ha, tick_of_mem_strikes hb]
      · rw [tick_of_mem_releases ha, tick_of_mem_releases hb]
      · rw [tick_of_mem_strikes ha, tick_of_mem_releases hb]
        omega
    · have := bounds_of_mem_sustained ha
      have := bounds_of_mem_flatMap htail hb
      omega

/-- The events of one note number are strikes and releases in turn. -/
theorem alternates_sustained (os : List (Occurrence Run)) (n : Int) :
    Alternates ((os.flatMap (sustained base velocity)).filter fun e => e.note = n) := by
  induction os with
  | nil => exact .nil
  | cons o os ih =>
    rw [List.flatMap_cons, List.filter_append, sustained_filter]
    split
    · exact .cons rfl rfl ih
    · exact ih

/-- What sounds at a tick is the triad of the run there: all runs before it are released, and none
behind it is struck. -/
theorem sounding_sustained (h : Tiles start stop os) {tick : Int} (ho : o ∈ os)
    (hlo : o.start ≤ tick) (hhi : tick < o.start + o.ticks) :
    sounding ((os.flatMap (sustained base velocity)).filter fun e => e.tick ≤ tick) =
      o.item.chord.triad base := by
  induction h with
  | nil => cases ho
  | @cons o' os stop _ htail ih =>
    rw [List.flatMap_cons, List.filter_append, sounding, List.foldl_append]
    rcases List.mem_cons.1 ho with rfl | ho
    · have hrest : (os.flatMap (sustained base velocity)).filter (fun e => e.tick ≤ tick) = [] :=
        List.filter_eq_nil_iff.2 fun e he => by
          have := bounds_of_mem_flatMap htail he
          simp only [decide_eq_true_eq]
          omega
      have hstruck : (strikes base velocity o).filter (fun e => e.tick ≤ tick) =
          strikes base velocity o :=
        List.filter_eq_self.2 fun e he => decide_eq_true (by rw [tick_of_mem_strikes he]; omega)
      have hreleased : (releases base o).filter (fun e => e.tick ≤ tick) = [] :=
        List.filter_eq_nil_iff.2 fun e he => by
          rw [decide_eq_true_eq, tick_of_mem_releases he]
          omega
      rw [hrest, sustained, List.filter_append, hstruck, hreleased, List.append_nil, strikes,
        foldl_soundsAfter_on]
      rfl
    · have hlater := (htail.bounds ho).1
      have hall : (sustained base velocity o').filter (fun e => e.tick ≤ tick) =
          sustained base velocity o' :=
        List.filter_eq_self.2 fun e he =>
          decide_eq_true (by have := bounds_of_mem_sustained he; omega)
      rw [hall, foldl_sustained]
      exact ih ho

end

/-! ## Rendered timelines -/

section
variable {settings : Stamping.Settings} {first : ChordName} {ticks : Nat} {runs : List Run}
  {t : Timeline}

/-- The runs of a timeline tile it. -/
theorem tiles_timeline (h : Stamping.RenderedRuns settings first ticks runs)
    (hcounters : t.slots.toList.map Slot.chordTicks = runs.flatMap fun r => countdown r.ticks) :
    Tiles 0 t.ticks (Cycle.layOnce Run.ticks 0 runs) := by
  rw [Timeline.ticks_eq_total hcounters, h.total_eq]
  exact h.tiles

/-- The events of a timeline with the runs of a rendering are those of its runs, one after the
other. -/
theorem chordEvents_eq_ok (h : Stamping.RenderedRuns settings first ticks runs)
    (hchords : t.slots.toList.map Slot.chord = runs.flatMap Run.chords)
    (hcounters : t.slots.toList.map Slot.chordTicks = runs.flatMap fun r => countdown r.ticks)
    (base velocity : Int) :
    chordEvents t base velocity =
      .ok ((Cycle.layOnce Run.ticks 0 runs).flatMap (sustained base velocity)) := by
  have hrun : ∀ o ∈ Cycle.layOnce Run.ticks 0 runs,
      runEvents base velocity ⟨o.start, some o.item.chord, o.ticks⟩ =
        .ok (sustained base velocity o) := by
    intro o ho
    have hnamed := h.named (Cycle.item_mem_of_mem_layOnce ho)
    simp only [runEvents, hnamed.pitches_eq]
    rfl
  have hevents : ((Cycle.layOnce Run.ticks 0 runs).map
      fun o => (⟨o.start, some o.item.chord, o.ticks⟩ : ChordRun)).mapM (runEvents base velocity) =
        .ok ((Cycle.layOnce Run.ticks 0 runs).map (sustained base velocity)) := by
    rw [Outcome.mapM_eq_ok_iff, List.forall₂_map_left_iff, List.forall₂_map_right_iff,
      List.forall₂_same]
    exact hrun
  have hsorted : ((Cycle.layOnce Run.ticks 0 runs).flatMap
      (sustained base velocity)).mergeSort (fun a b => a.tick ≤ b.tick) =
        (Cycle.layOnce Run.ticks 0 runs).flatMap (sustained base velocity) :=
    List.mergeSort_of_pairwise (by simpa using pairwise_sustained h.tiles)
  have hruns := (Timeline.runs_and_dump_eq_ok h.pos hchords hcounters).1
  exact Outcome.bind_eq_ok_iff.2 ⟨_, hruns,
    Outcome.bind_eq_ok_iff.2 ⟨_, hevents, congrArg Except.ok hsorted⟩⟩

end

end ChordEvents

/-- The chords of a rendered timeline are struck and released in turn, and sound as long as they
last. -/
theorem chordEvents_bracketed {σ : Type} [Source σ] {engine : HarmonyEngine} {song : Structure}
    {source : σ} {t : Timeline} (h : (engine.renderFrom song source).result = .ok t)
    (base velocity : Int) :
    ∃ events, chordEvents t base velocity = .ok events ∧
      ChordEvents.Sustained t base events := by
  obtain ⟨first, runs, hrendered, hchords, hcounters⟩ := HarmonyEngine.exists_renderedRuns h
  have htiles := ChordEvents.tiles_timeline hrendered hcounters
  refine ⟨_, ChordEvents.chordEvents_eq_ok hrendered hchords hcounters base velocity,
    ChordEvents.pairwise_sustained htiles, fun e he => ?_,
    ChordEvents.alternates_sustained _, fun tick htick => ?_⟩
  · have := ChordEvents.bounds_of_mem_flatMap htiles he
    omega
  · obtain ⟨o, ho, hlo, hhi⟩ := htiles.exists_covering (Nat.zero_le tick) htick
    have hnamed := hrendered.named (Cycle.item_mem_of_mem_layOnce ho)
    exact ⟨o.item.chord, o.item.chord.triad base,
      Timeline.chord?_eq hchords (Run.getElem?_chords ho hlo hhi), hnamed.pitches_eq base, rfl,
      ChordEvents.sounding_sustained htiles ho (by omega) (by omega)⟩

/-- Two chords that share two notes: these are struck again where the second one begins. -/
theorem chordEvents_bracketed_shared :
    let engine : HarmonyEngine :=
      ⟨[⟨"C/2,Am/1".toList, none, none, by decide⟩], [], true, 7, by simp⟩
    let song : Structure := ⟨3, 1, 127, by decide, by decide, by decide⟩
    let major : Chord := ⟨0, .major, 0, "C".toList⟩
    let minor : Chord := ⟨9, .minor, -1, "Am".toList⟩
    let t : Timeline := ⟨#[⟨major, 2, 3⟩, ⟨major, 1, 2⟩, ⟨minor, 1, 1⟩]⟩
    (engine.renderFrom song ([] : List Nat)).result = .ok t ∧
      ∃ events, chordEvents t 60 90 = .ok events ∧
        Alternates (events.filter fun e => e.note = 60) ∧
        sounding (events.filter fun e => e.tick ≤ 2) = [57, 60, 64] := by
  intro engine song major minor t
  have hrender : (engine.renderFrom song ([] : List Nat)).result = .ok t := by decide +kernel
  obtain ⟨events, hevents, h⟩ := chordEvents_bracketed hrender 60 90
  obtain ⟨c, pitches, hc, hpitches, -, hsounding⟩ := h.sounding 2 (by decide)
  cases hc
  cases hpitches
  exact ⟨hrender, events, hevents, h.alternates 60, hsounding⟩

end Songsmith
