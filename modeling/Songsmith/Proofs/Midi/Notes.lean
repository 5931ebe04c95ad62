import Songsmith.Proofs.Midi.Bracketing
import Songsmith.Proofs.Pattern.RoundTrip

/-!
# The notes of a looped pattern

Which notes a pattern sounds and when does not depend on what is held. The entries are repeated from
tick zero on (`Cycle.Laid`), and each one that is a note and has a number that exists is struck
where it starts and released where it ends, or with the song (`PatternEvents.noteEvents`). The
events of a pattern are these and no others, in some order (`patternEvents_perm`), so that patterns
which differ in their legato marks only have the same events.

Held notes are released by the occurrence after their own, but the spans of the notes
(`PatternEvents.spans`) have put this right already; what is left is that an occurrence is cut at
the end of the song (`PatternEvents.map_event_spans`).
-/

namespace Songsmith

/-- The occurrences of items that are repeated from tick zero on: occurrence number `k` is that of
item `k` modulo their number, and it is there if it starts in the song. -/
def Cycle.Laid {α : Type} (length : α → Nat) (items : List α) (ticks : Nat)
    (os : List (Occurrence α)) : Prop :=
  ∀ (k : Nat) (o : Occurrence α), os[k]? = some o ↔
    ∃ start x, Starts (some ∘ length) items k start ∧ items[k % items.length]? = some x ∧
      start < ticks ∧ o = ⟨start, x, min (length x) (ticks - start)⟩

namespace PatternEvents

/-- The events of the note of an entry that starts at a tick of the song: it is struck there, and
released where it ends or where the song does. An entry that is no note, or whose number does not
exist, has no events. -/
def noteEvents (p : Placement) (ticks : Int) (start : Nat) (e : Entry) : List NoteEvent :=
  match e.pitch with
  | none => []
  | some pitch =>
    let n := p.basePitch + pitch + p.root start
    if e.isNote ∧ 0 ≤ n ∧ n ≤ 127 then
      [⟨start, .on, n, e.velocity⟩, ⟨min (start + e.ticks) ticks, .off, n, 0⟩]
    else []

section
variable {p : Placement} {ticks : Int}

/-- What an entry sounds is what its occurrence strikes. -/
theorem noteEvents_eq (o : Occurrence Entry) :
    noteEvents p ticks o.start o.item = (struck? p o).toList.flatMap fun n =>
      [⟨o.start, .on, n, o.item.velocity⟩, ⟨min (o.start + o.item.ticks) ticks, .off, n, 0⟩] := by
  unfold struck? requested? noteEvents
  cases hpitch : o.item.pitch with
  | none => simp
  | some pitch =>
    cases hnote : o.item.isNote with
    | false => simp
    | true =>
      simp only [if_true, true_and, Option.map_some, Option.filter_some, inRange,
        Bool.and_eq_true, decide_eq_true_eq]
      split
      · rfl
      · rfl

/-- The events of an occurrence, without phases, are those of its entry cut off at the end of the
song. -/
theorem map_event_span {o : Occurrence Entry} {next : Option (Occurrence Entry)}
    (hend : (o.start + o.ticks : Int) = min ((o.start : Int) + o.item.ticks) ticks) :
    (span p o next).map PhasedEvent.event = noteEvents p ticks o.start o.item := by
  rw [noteEvents_eq, span, List.map_flatMap]
  simp only [List.map_cons, List.map_nil, hend]

/-- The spans of occurrences that are cut at the end of the song sound their entries. -/
theorem map_event_spans {os : List (Occurrence Entry)}
    (hend : ∀ o ∈ os, (o.start + o.ticks : Int) = min ((o.start : Int) + o.item.ticks) ticks) :
    (spans p os).map PhasedEvent.event = os.flatMap fun o => noteEvents p ticks o.start o.item := by
  induction os with
  | nil => rfl
  | cons o os ih =>
    rw [spans, List.map_append, map_event_span (hend o List.mem_cons_self),
      ih fun o' ho' => hend o' (List.mem_cons_of_mem _ ho'), List.flatMap_cons]

end

/-- The sorted events of the entries of a pattern, repeated over a song, are their notes. -/
theorem sorted_perm_noteEvents (p : Placement) (ticks : Int) (resolved : Pattern) :
    ((sorted p ticks.toNat (Cycle.lay Entry.ticks resolved.entries ticks.toNat)).map
        PhasedEvent.event).Perm
      ((Cycle.lay Entry.ticks resolved.entries ticks.toNat).flatMap fun o =>
        noteEvents p ticks o.start o.item) := by
  have htiles := Cycle.tiles_lay Entry.ticks_pos resolved.nonempty ticks.toNat
  rw [← map_event_spans]
  · exact (sorted_perm htiles).map _
  · intro o ho
    obtain ⟨k, hk⟩ := List.getElem?_of_mem ho
    obtain ⟨start, e, -, -, hlt, rfl⟩ :=
      (Cycle.getElem?_lay Entry.ticks_pos resolved.nonempty).1 hk
    simp only
    omega

/-- A resolved pattern sounds the notes of its occurrences, in some order, unless a note is left out
whose number is too long to be reported. -/
theorem result_perm_noteEvents {pattern resolved : Pattern} {offsets : List (Text × Int)}
    (h : pattern.assign offsets = .ok resolved) (ticks : Int) (p : Placement) :
    let occurrences := Cycle.lay Entry.ticks resolved.entries ticks.toNat
    (Reportable p occurrences → ∃ events,
        (patternEvents pattern ticks p offsets).result = .ok events ∧
          events.Perm (occurrences.flatMap fun o => noteEvents p ticks o.start o.item)) ∧
      (¬ Reportable p occurrences →
        (patternEvents pattern ticks p offsets).result = .error (.invalid .integerLength)) := by
  intro occurrences
  obtain ⟨hreport, herror⟩ := result_reportEach_skipped p occurrences
  rw [result_patternEvents h]
  constructor
  · intro hok
    rw [hreport hok]
    exact ⟨_, rfl, sorted_perm_noteEvents p ticks resolved⟩
  · intro hlong
    rw [herror hlong]
    rfl

end PatternEvents

/-! ## Legato marks -/

/-- The entry without its legato mark. -/
def Entry.plain (e : Entry) : Entry := { e with legato := false }

/-- The patterns differ in their legato marks only. -/
def Pattern.SameButLegato (p q : Pattern) : Prop :=
  p.entries.map Entry.plain = q.entries.map Entry.plain

/-- The occurrence without the legato mark of its entry. -/
def Occurrence.plain (o : Occurrence Entry) : Occurrence Entry := ⟨o.start, o.item.plain, o.ticks⟩

/-- A legato mark makes no difference to the pitch that an entry is assigned. -/
theorem Entry.assign_plain (offsets : List (Text × Int)) (e : Entry) :
    e.plain.assign offsets = (e.assign offsets).map Entry.plain := by
  obtain ⟨ticks, pitch, wildcard, velocity, legato, positive⟩ := e
  cases wildcard with
  | none => rfl
  | some w => cases h : Entry.lookup offsets w <;> simp [Entry.assign, Entry.plain, h, Except.map]

/-- Patterns that differ in their legato marks only are resolved alike. -/
theorem Pattern.SameButLegato.assign {p q p' : Pattern} {offsets : List (Text × Int)}
    (h : p.SameButLegato q) (hassign : p.assign offsets = .ok p') :
    ∃ q', q.assign offsets = .ok q' ∧ p'.SameButLegato q' := by
  obtain ⟨entries, hentries, hp'⟩ := Outcome.bind_eq_ok_iff.1 hassign
  have hplain : ∀ es : List Entry, (es.map Entry.plain).mapM (Entry.assign offsets) =
      (es.mapM (Entry.assign offsets)).map (List.map Entry.plain) :=
    fun es => Outcome.mapM_map_comm (Entry.assign_plain offsets) es
  have hq := hplain q.entries
  rw [← h, hplain, hentries] at hq
  obtain ⟨entries', hentries', hmap⟩ := Outcome.map_eq_ok_iff.1 hq.symm
  obtain ⟨q', hq', rfl⟩ := exists_assign_of_mapM hentries'
  refine ⟨q', hq', ?_⟩
  rw [SameButLegato, entries_of_ofEntries hp']
  exact hmap.symm

/-- The occurrences of patterns that differ in their legato marks only do so, too. -/
theorem Pattern.SameButLegato.lay {p q : Pattern} (h : p.SameButLegato q) (ticks : Nat) :
    (Cycle.lay Entry.ticks p.entries ticks).map Occurrence.plain =
      (Cycle.lay Entry.ticks q.entries ticks).map Occurrence.plain := by
  have hplain : ∀ es : List Entry, Cycle.lay Entry.ticks (es.map Entry.plain) ticks =
      (Cycle.lay Entry.ticks es ticks).map Occurrence.plain := fun es => Cycle.lay_map ..
  rw [← hplain, ← hplain, h]

namespace PatternEvents

/-- Occurrences sound the same notes without their legato marks. -/
theorem flatMap_noteEvents_plain (p : Placement) (ticks : Int) (os : List (Occurrence Entry)) :
    ((os.map Occurrence.plain).flatMap fun o => noteEvents p ticks o.start o.item) =
      os.flatMap fun o => noteEvents p ticks o.start o.item := by
  rw [List.flatMap_map]
  rfl

/-- Legato marks make no difference to what has to be reported. -/
theorem reportable_plain {p : Placement} {os : List (Occurrence Entry)} :
    Reportable p (os.map Occurrence.plain) ↔ Reportable p os := by
  unfold Reportable
  rw [List.forall_mem_map]
  rfl

end PatternEvents

/-! ## The events of a pattern -/

/-- The events of a resolved pattern are those of the notes of its entries, repeated over the song,
and no others; and they are the same for every pattern that differs in its legato marks only. What
can go wrong is that a note is left out whose number is too long to be reported. -/
theorem patternEvents_perm {pattern resolved : Pattern} {offsets : List (Text × Int)}
    (h : pattern.assign offsets = .ok resolved) (ticks : Int)
    (placement : PatternEvents.Placement) :
    let occurrences := Cycle.lay Entry.ticks resolved.entries ticks.toNat
    Cycle.Laid Entry.ticks resolved.entries ticks.toNat occurrences ∧
      (PatternEvents.Reportable placement occurrences →
        ∃ events, (patternEvents pattern ticks placement offsets).result = .ok events ∧
          events.Perm (occurrences.flatMap fun o =>
            PatternEvents.noteEvents placement ticks o.start o.item)) ∧
      (¬ PatternEvents.Reportable placement occurrences →
        (patternEvents pattern ticks placement offsets).result =
          .error (.invalid .integerLength)) ∧
      ∀ other events, pattern.SameButLegato other →
        (patternEvents pattern ticks placement offsets).result = .ok events →
        ∃ events', (patternEvents other ticks placement offsets).result = .ok events' ∧
          events'.Perm events := by
  intro occurrences
  obtain ⟨hok, herror⟩ := PatternEvents.result_perm_noteEvents h ticks placement
  refine ⟨fun k o => Cycle.getElem?_lay Entry.ticks_pos resolved.nonempty, hok, herror, ?_⟩
  intro other events hsame hevents
  by_cases hreport : PatternEvents.Reportable placement occurrences
  · obtain ⟨events₁, hevents₁, hperm⟩ := hok hreport
    rw [hevents₁] at hevents
    cases hevents
    obtain ⟨resolved', h', hsame'⟩ := hsame.assign h
    have hlay := hsame'.lay ticks.toNat
    rw [← PatternEvents.reportable_plain, hlay, PatternEvents.reportable_plain] at hreport
    obtain ⟨events', hevents', hperm'⟩ :=
      (PatternEvents.result_perm_noteEvents h' ticks placement).1 hreport
    rw [← PatternEvents.flatMap_noteEvents_plain, ← hlay,
      PatternEvents.flatMap_noteEvents_plain] at hperm'
    exact ⟨events', hevents', hperm'.trans hperm.symm⟩
  · rw [herror hreport] at hevents
    cases hevents

/-- A held note before one that does not exist, a held wildcard that the end of the song cuts off,
and a chord that ends with the timeline: with or without legato marks, the same notes. -/
theorem patternEvents_perm_overrun :
    ∃ events events', (patternEvents
        ⟨[⟨2, some 0, none, 100, true, by decide⟩, ⟨1, some 70, none, 90, false, by decide⟩,
          ⟨3, none, some ['#'], 80, true, by decide⟩], by simp⟩ 5
        ⟨60, some ⟨#[⟨some ⟨2, .major, 0, []⟩, 1, 1⟩]⟩⟩ [(['#'], 7)]).result = .ok events ∧
      (patternEvents
        ⟨[⟨2, some 0, none, 100, false, by decide⟩, ⟨1, some 70, none, 90, true, by decide⟩,
          ⟨3, none, some ['#'], 80, false, by decide⟩], by simp⟩ 5
        ⟨60, some ⟨#[⟨some ⟨2, .major, 0, []⟩, 1, 1⟩]⟩⟩ [(['#'], 7)]).result = .ok events' ∧
      events'.Perm events ∧ events.Perm [⟨0, .on, 62, 100⟩, ⟨2, .off, 62, 0⟩, ⟨3, .on, 67, 80⟩,
        ⟨5, .off, 67, 0⟩] := by
  have hresolved : Pattern.assign [(['#'], 7)] ⟨[⟨2, some 0, none, 100, true, by decide⟩,
      ⟨1, some 70, none, 90, false, by decide⟩, ⟨3, none, some ['#'], 80, true, by decide⟩],
      by simp⟩ = .ok ⟨[⟨2, some 0, none, 100, true, by decide⟩,
        ⟨1, some 70, none, 90, false, by decide⟩, ⟨3, some 7, none, 80, true, by decide⟩],
        by simp⟩ := rfl
  obtain ⟨-, hok, -, hlegato⟩ :=
    patternEvents_perm hresolved 5 ⟨60, some ⟨#[⟨some ⟨2, .major, 0, []⟩, 1, 1⟩]⟩⟩
  obtain ⟨events, hevents, hperm⟩ := hok (by decide +kernel)
  obtain ⟨events', hevents', hperm'⟩ := hlegato ⟨[⟨2, some 0, none, 100, false, by decide⟩,
    ⟨1, some 70, none, 90, true, by decide⟩, ⟨3, none, some ['#'], 80, false, by decide⟩],
    by simp⟩ events rfl hevents
  exact ⟨events, events', hevents, hevents', hperm', hperm⟩

end Songsmith
