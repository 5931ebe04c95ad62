import Songsmith.Proofs.Midi.Spans
import Songsmith.Proofs.Outcome

/-!
# Strikes and releases of a pattern

The note events of a pattern are in order, they lie in the song, and the events of every note number
are strikes and releases in turn (`Alternates`), so that no note is struck twice before it is
released and none is left sounding. Where a held note meets the next one, the two overlap exactly if
they are different (`Handover`). `patternEvents_bracketed` says that the events of a pattern are so
whenever its wildcards are given; the only thing that can go wrong then is a note that is left out
and whose number is too long to be reported.

The events are the sorted spans of the notes. Those of one note number are strictly increasing as
they stand (`pairwise_spans_filter`), so sorting leaves them alone (`sorted_filter`).
-/

namespace Songsmith

/-- Strikes and releases in turn, from a strike to a release. -/
inductive Alternates : List NoteEvent → Prop
  | nil : Alternates []
  | cons {on off : NoteEvent} {rest : List NoteEvent} : on.change = .on → off.change = .off →
      Alternates rest → Alternates (on :: off :: rest)

/-- At a tick, one note is released and one is struck: the release goes first if the two are the
same, and last otherwise. -/
structure Handover (events : List NoteEvent) (tick released struck : Int) : Prop where
  released_mem : ⟨tick, .off, released, 0⟩ ∈ events
  struck_mem : ∃ velocity, ⟨tick, .on, struck, velocity⟩ ∈ events
  order : ∀ (i j : Nat) (velocity velocity' : Int),
    events[i]? = some ⟨tick, .off, released, velocity⟩ →
    events[j]? = some ⟨tick, .on, struck, velocity'⟩ →
    if released = struck then i < j else j < i

namespace PhasedEvent

/-- An event goes before another one, whatever the order in which they are given. -/
def Before (a b : PhasedEvent) : Prop :=
  a.event.tick < b.event.tick ∨ a.event.tick = b.event.tick ∧ a.phase.rank < b.phase.rank

/-- Events are ordered by tick, and on one tick by phase. -/
theorem le_iff {a b : PhasedEvent} : PhasedEvent.le a b = true ↔
    a.event.tick < b.event.tick ∨ a.event.tick = b.event.tick ∧ a.phase.rank ≤ b.phase.rank := by
  simp [PhasedEvent.le]

/-- The order of events is transitive, as sorting needs it. -/
theorem le_trans (a b c : PhasedEvent) (hab : PhasedEvent.le a b = true)
    (hbc : PhasedEvent.le b c = true) : PhasedEvent.le a c = true := by
  rw [le_iff] at hab hbc ⊢
  omega

/-- Any two events are ordered one way or the other. -/
theorem le_total (a b : PhasedEvent) : (PhasedEvent.le a b || PhasedEvent.le b a) = true := by
  rw [Bool.or_eq_true, le_iff, le_iff]
  omega

/-- What goes before another event may stand before it. -/
theorem Before.le {a b : PhasedEvent} (h : Before a b) : PhasedEvent.le a b = true := by
  rw [le_iff]
  unfold Before at h
  omega

/-- What goes before never comes behind, so that sorting must keep the two in order. -/
theorem Before.not_le {a b : PhasedEvent} (h : Before a b) : ¬ PhasedEvent.le b a = true := by
  rw [le_iff]
  unfold Before at h
  omega

/-- In a sorted list, an event that goes before another one stands before it. -/
theorem Before.index_lt {events : List PhasedEvent}
    (hsorted : events.Pairwise fun a b => PhasedEvent.le a b = true) {i j : Nat}
    {a b : PhasedEvent} (ha : events[i]? = some a) (hb : events[j]? = some b) (h : Before a b) :
    i < j := by
  obtain ⟨hi, rfl⟩ := List.getElem?_eq_some_iff.1 ha
  obtain ⟨hj, rfl⟩ := List.getElem?_eq_some_iff.1 hb
  rcases Nat.lt_trichotomy i j with hij | rfl | hji
  · exact hij
  · exact absurd (by rw [le_iff]; exact .inr ⟨rfl, Nat.le_refl _⟩) h.not_le
  · exact absurd (List.pairwise_iff_getElem.1 hsorted j i hj hi hji) h.not_le

end PhasedEvent

namespace PatternEvents

open PhasedEvent (Before)

/-- The number of every note that is left out is short enough to be reported. -/
def Reportable (p : Placement) (os : List (Occurrence Entry)) : Prop :=
  ∀ o ∈ os, ∀ n ∈ requested? p o, inRange n = false →
    (Nat.toDigits 10 n.natAbs).length ≤ Integer.digitLimit

instance (p : Placement) (os : List (Occurrence Entry)) : Decidable (Reportable p os) :=
  inferInstanceAs (Decidable (∀ o ∈ os, ∀ n ∈ requested? p o, inRange n = false →
    (Nat.toDigits 10 n.natAbs).length ≤ Integer.digitLimit))

/-- The events of the occurrences of a resolved pattern over a song are in order, in the song and in
turn, every note that exists is struck, and a held note overlaps the next one if that is another. -/
structure Bracketed (p : Placement) (ticks : Int) (os : List (Occurrence Entry))
    (events : List NoteEvent) : Prop where
  ordered : events.Pairwise fun a b => a.tick ≤ b.tick
  bounded : ∀ e ∈ events, 0 ≤ e.tick ∧ e.tick ≤ ticks
  alternates : ∀ n, Alternates (events.filter fun e => e.note = n)
  struck : ∀ o ∈ os, ∀ n, struck? p o = some n → ⟨o.start, .on, n, o.item.velocity⟩ ∈ events
  handover : ∀ (k : Nat) (o next : Occurrence Entry) (a b : Int), os[k]? = some o →
    os[k + 1]? = some next → o.item.legato = true → struck? p o = some a →
    struck? p next = some b → Handover events next.start a b

section
variable {p : Placement} {start stop : Nat} {os : List (Occurrence Entry)}

/-! ## The notes of one number -/

/-- The events of a span that have a given number: all of them or none. -/
theorem span_filter (o : Occurrence Entry) (next : Option (Occurrence Entry)) (n : Int) :
    (span p o next).filter (fun e => e.event.note = n) =
      if struck? p o = some n then span p o next else [] := by
  unfold span
  cases struck? p o with
  | none => simp
  | some m =>
    by_cases h : m = n
    · simp [h]
    · simp [h]

/-- A note is released before the next one of its number is struck. -/
theorem before_of_mem_span {o : Occurrence Entry} {a b : PhasedEvent}
    (h : Tiles (o.start + o.ticks) stop os) (hpos : 0 < o.ticks) (ha : a ∈ span p o os.head?)
    (hb : b ∈ spans p os) (hnote : a.event.note = b.event.note) : Before a b := by
  obtain ⟨k, o', ho', hb⟩ := mem_spans.1 hb
  obtain ⟨n, hn, ha⟩ := mem_span.1 ha
  obtain ⟨n', hn', hb⟩ := mem_span.1 hb
  have hbounds := h.bounds (List.mem_of_getElem? ho')
  have hlater : (o.start + o.ticks : Int) ≤ o'.start := by omega
  unfold Before
  rcases ha with rfl | rfl
  · rcases hb with rfl | rfl <;> exact .inl (by simp only; omega)
  · rcases hb with rfl | rfl
    · cases k with
      | zero =>
        -- the next occurrence strikes the same note, so the release does not wait for it
        cases hnote
        have hphase : releasePhase p o n os.head? = .release := by
          rw [List.head?_eq_getElem?, ho']
          simp [releasePhase, handoverPhase, hn']
        rw [hphase]
        have := h.start_eq ho'
        exact .inr ⟨by simp only; omega, Nat.zero_lt_one⟩
      | succ k =>
        have := h.start_lt ho'
        exact .inl (by simp only; omega)
    · exact .inl (by simp only; omega)

/-- The spans of one note number are in order. -/
theorem pairwise_spans_filter (h : Tiles start stop os) (n : Int) :
    ((spans p os).filter fun e => e.event.note = n).Pairwise Before := by
  induction h with
  | nil => exact .nil
  | @cons o os stop hpos htail ih =>
    rw [spans, List.filter_append, List.pairwise_append]
    refine ⟨?_, ih, fun a ha b hb => ?_⟩
    · rw [span_filter]
      split
      · rename_i hn
        simp only [span, hn, Option.toList_some, List.flatMap_singleton, List.pairwise_cons,
          List.mem_singleton, forall_eq, List.not_mem_nil, false_implies, implies_true,
          List.Pairwise.nil, and_true]
        exact .inl (by simp only; omega)
      · exact .nil
    · obtain ⟨ha, han⟩ := List.mem_filter.1 ha
      obtain ⟨hb, hbn⟩ := List.mem_filter.1 hb
      exact before_of_mem_span htail hpos ha hb
        ((of_decide_eq_true han).trans (of_decide_eq_true hbn).symm)

/-- The spans of one note number are strikes and releases in turn. -/
theorem alternates_spans_filter (os : List (Occurrence Entry)) (n : Int) :
    Alternates (((spans p os).filter fun e => e.event.note = n).map PhasedEvent.event) := by
  induction os with
  | nil => exact .nil
  | cons o os ih =>
    rw [spans, List.filter_append, List.map_append, span_filter]
    split
    · rename_i hn
      simp only [span, hn, Option.toList_some, List.flatMap_singleton]
      exact .cons rfl rfl ih
    · exact ih

/-! ## The sorted events -/

/-- The events in order, with their phases. -/
def sorted (p : Placement) (stop : Nat) (os : List (Occurrence Entry)) : List PhasedEvent :=
  (causedEvents p stop os).mergeSort PhasedEvent.le

/-- The sorted events are in order. -/
theorem pairwise_sorted :
    (sorted p stop os).Pairwise fun a b => PhasedEvent.le a b = true :=
  List.pairwise_mergeSort PhasedEvent.le_trans PhasedEvent.le_total _

/-- Sorting keeps all the events of a tiling. -/
theorem sorted_perm (h : Tiles start stop os) : (sorted p stop os).Perm (spans p os) :=
  (List.mergeSort_perm _ _).trans (causedEvents_perm h)

/-- An event of a span is among the sorted ones. -/
theorem event_mem_sorted (h : Tiles start stop os) {e : PhasedEvent} (he : e ∈ spans p os) :
    e.event ∈ (sorted p stop os).map PhasedEvent.event :=
  List.mem_map_of_mem ((sorted_perm h).mem_iff.2 he)

/-- Sorting leaves the events of one note number in the order of their occurrences. -/
theorem sorted_filter (h : Tiles start stop os) (n : Int) :
    (sorted p stop os).filter (fun e => e.event.note = n) =
      (spans p os).filter fun e => e.event.note = n := by
  have hperm := (sorted_perm (p := p) h).filter fun e => e.event.note = n
  have hbefore := pairwise_spans_filter (p := p) h n
  refine List.Perm.eq_of_pairwise (fun a b ha hb hab hba => ?_) (pairwise_sorted.filter _)
    (hbefore.imp Before.le) hperm
  refine List.Pairwise.forall_of_forall_of_flip
    (R := fun a b => PhasedEvent.le a b = true → PhasedEvent.le b a = true → a = b)
    (fun _ _ _ _ => rfl) (hbefore.imp fun hbefore _ hle => absurd hle hbefore.not_le)
    (hbefore.imp fun hbefore hle _ => absurd hle hbefore.not_le) (hperm.subset ha) hb hab hba

/-- The release at the end of an occurrence is that of its own note. -/
theorem eq_release_of_mem_spans (h : Tiles start stop os) {k : Nat} {o : Occurrence Entry}
    (ho : os[k]? = some o) {e : PhasedEvent} (he : e ∈ spans p os) (hoff : e.event.change = .off)
    (htick : e.event.tick = o.start + o.ticks) :
    e.phase = releasePhase p o e.event.note os[k + 1]? := by
  obtain ⟨j, o', ho', he⟩ := mem_spans.1 he
  obtain ⟨n, -, rfl | rfl⟩ := mem_span.1 he
  · cases hoff
  · have hpos := h.bounds (List.mem_of_getElem? ho)
    have hpos' := h.bounds (List.mem_of_getElem? ho')
    simp only at htick
    rcases Nat.lt_trichotomy j k with hjk | rfl | hkj
    · have := h.end_le ho' ho hjk
      omega
    · rw [ho] at ho'
      cases ho'
      rfl
    · have := h.end_le ho ho' hkj
      omega

/-- Every event that switches a note on is a strike. -/
theorem strike_of_mem_spans {e : PhasedEvent} (he : e ∈ spans p os)
    (hon : e.event.change = .on) : e.phase = .strike := by
  obtain ⟨_, _, _, he⟩ := mem_spans.1 he
  obtain ⟨_, _, rfl | rfl⟩ := mem_span.1 he
  · rfl
  · cases hon

/-- A held note is released behind the next one unless the two are the same. -/
theorem releasePhase_some {o next : Occurrence Entry} {a b : Int} (hlegato : o.item.legato = true)
    (hb : struck? p next = some b) :
    releasePhase p o a (some next) = if a = b then .release else .legatoRelease := by
  rw [releasePhase, if_pos hlegato, handoverPhase, hb]
  by_cases h : a = b
  · rw [if_pos h, if_neg (fun hne => hne.2 (congrArg some h.symm))]
  · rw [if_neg h, if_pos ⟨rfl, fun heq => h (Option.some.inj heq).symm⟩]

/-- A held note and the one that is struck when it ends overlap exactly if they are different. -/
theorem handover_sorted (h : Tiles start stop os) {k : Nat} {o next : Occurrence Entry}
    {a b : Int} (ho : os[k]? = some o) (hnext : os[k + 1]? = some next)
    (hlegato : o.item.legato = true) (ha : struck? p o = some a) (hb : struck? p next = some b) :
    Handover ((sorted p stop os).map PhasedEvent.event) next.start a b := by
  have hend : (o.start + o.ticks : Int) = next.start := by
    have := h.end_eq ho hnext
    omega
  refine ⟨?_, ⟨next.item.velocity, ?_⟩, fun i j _ _ hi hj => ?_⟩
  · rw [← hend]
    exact event_mem_sorted h (mem_spans.2 ⟨k, o, ho, mem_span.2 ⟨a, ha, .inr rfl⟩⟩)
  · exact event_mem_sorted h (mem_spans.2 ⟨k + 1, next, hnext, mem_span.2 ⟨b, hb, .inl rfl⟩⟩)
  · rw [List.getElem?_map, Option.map_eq_some_iff] at hi hj
    obtain ⟨⟨phase, _⟩, hi, rfl⟩ := hi
    obtain ⟨⟨phase', _⟩, hj, rfl⟩ := hj
    have hi' := (sorted_perm h).mem_iff.1 (List.mem_of_getElem? hi)
    have hj' := (sorted_perm h).mem_iff.1 (List.mem_of_getElem? hj)
    obtain rfl : phase' = .strike := strike_of_mem_spans hj' rfl
    have hphase : phase = releasePhase p o a os[k + 1]? :=
      eq_release_of_mem_spans h ho hi' rfl hend.symm
    rw [hnext, releasePhase_some hlegato hb] at hphase
    split at hphase
    · rename_i hab
      subst hphase
      rw [if_pos hab]
      exact Before.index_lt pairwise_sorted hi hj (.inr ⟨rfl, Nat.lt_add_one _⟩)
    · rename_i hab
      subst hphase
      rw [if_neg hab]
      exact Before.index_lt pairwise_sorted hj hi (.inr ⟨rfl, Nat.lt_add_one _⟩)

/-- The events of occurrences that tile the song are bracketed. -/
theorem bracketed_sorted (h : Tiles 0 stop os) {ticks : Int} (hticks : stop = ticks.toNat) :
    Bracketed p ticks os ((sorted p stop os).map PhasedEvent.event) where
  ordered := by
    rw [List.pairwise_map]
    refine pairwise_sorted.imp fun hle => ?_
    rw [PhasedEvent.le_iff] at hle
    omega
  bounded := by
    intro e he
    obtain ⟨x, hx, rfl⟩ := List.mem_map.1 he
    obtain ⟨k, o, ho, hx⟩ := mem_spans.1 ((sorted_perm h).mem_iff.1 hx)
    have hbounds := h.bounds (List.mem_of_getElem? ho)
    obtain ⟨n, -, rfl | rfl⟩ := mem_span.1 hx <;> simp only <;> omega
  alternates := by
    intro n
    rw [List.filter_map]
    have := alternates_spans_filter (p := p) os n
    rwa [← sorted_filter h] at this
  struck := by
    intro o ho n hn
    obtain ⟨k, hk⟩ := List.getElem?_of_mem ho
    exact event_mem_sorted h (mem_spans.2 ⟨k, o, hk, mem_span.2 ⟨n, hn, .inl rfl⟩⟩)
  handover := fun k o next a b ho hnext hlegato ha hb =>
    handover_sorted h ho hnext hlegato ha hb

end

/-! ## The events of a pattern -/

/-- Notices about the notes that are left out fail only on numbers that are too long. -/
theorem result_reportEach_skipped (p : Placement) (os : List (Occurrence Entry)) :
    (Reportable p os → (Traced.reportEach [] (skipped p os)).result = .ok ()) ∧
      (¬ Reportable p os →
        (Traced.reportEach [] (skipped p os)).result = .error (.invalid .integerLength)) := by
  have hmem : ∀ {r}, r ∈ skipped p os ↔ ∃ o ∈ os, ∃ n, requested? p o = some n ∧
      inRange n = false ∧ (Integer.write n).map (.noteSkipped · o.start) = r := by
    simp [skipped, and_assoc]
  constructor
  · intro hreport
    refine Traced.result_reportEach_ok fun r hr => ?_
    obtain ⟨o, ho, n, hn, hrange, rfl⟩ := hmem.1 hr
    rw [Integer.write, if_neg (by have := hreport o ho n hn hrange; omega)]
    exact ⟨_, rfl⟩
  · intro hreport
    simp only [Reportable, not_forall] at hreport
    obtain ⟨o, ho, n, hn, hrange, hlong⟩ := hreport
    refine Traced.result_reportEach_error (fun r hr e' he => ?_)
      ⟨_, hmem.2 ⟨o, ho, n, hn, hrange, rfl⟩, ?_⟩
    · obtain ⟨o', -, n', -, -, rfl⟩ := hmem.1 hr
      unfold Integer.write at he
      split at he
      · cases he; rfl
      · cases he
    · rw [Integer.write, if_pos (by omega)]
      rfl

/-- The events of a resolved pattern are the sorted ones, if what is left out can be reported. -/
theorem result_patternEvents {pattern resolved : Pattern} {offsets : List (Text × Int)}
    (h : pattern.assign offsets = .ok resolved) (ticks : Int) (p : Placement) :
    (patternEvents pattern ticks p offsets).result =
      (Traced.reportEach [] (skipped p (Cycle.lay Entry.ticks resolved.entries ticks.toNat))).result
        >>= fun _ => .ok ((sorted p ticks.toNat
          (Cycle.lay Entry.ticks resolved.entries ticks.toNat)).map PhasedEvent.event) := by
  simp only [patternEvents, Traced.result_bind, Traced.result_ofExcept, Traced.result_pure, h]
  rfl

end PatternEvents

/-- A pattern is resolved if its entries are. -/
theorem Pattern.exists_assign_of_mapM {p : Pattern} {offsets : List (Text × Int)}
    {entries : List Entry} (h : p.entries.mapM (Entry.assign offsets) = .ok entries) :
    ∃ resolved, p.assign offsets = .ok resolved ∧ resolved.entries = entries := by
  have hne : entries ≠ [] := by
    rintro rfl
    exact p.nonempty (List.forall₂_nil_right_iff.1 (Outcome.mapM_eq_ok_iff.1 h))
  exact ⟨⟨entries, hne⟩, Outcome.bind_eq_ok_iff.2 ⟨entries, h, dif_neg hne⟩, rfl⟩

/-- A pattern whose wildcards are all given can be resolved. -/
theorem Pattern.exists_assign_eq_ok {p : Pattern} {offsets : List (Text × Int)}
    (hgiven : ∀ e ∈ p.entries, ∀ w, e.wildcard = some w → ∃ pitch, (w, pitch) ∈ offsets) :
    ∃ resolved, p.assign offsets = .ok resolved := by
  have hentry : ∀ e ∈ p.entries, ∃ e', Entry.assign offsets e = .ok e' := by
    intro e he
    unfold Entry.assign
    split
    · exact ⟨e, rfl⟩
    · rename_i w hw
      obtain ⟨pitch, hpitch⟩ := hgiven e he w hw
      unfold Entry.lookup
      split
      · exact ⟨_, rfl⟩
      · rename_i hnone
        exact absurd (List.find?_eq_none.1 hnone _ hpitch) (by simp)
  obtain ⟨entries, hentries⟩ := Outcome.exists_mapM_eq_ok hentry
  obtain ⟨resolved, hresolved, -⟩ := exists_assign_of_mapM hentries
  exact ⟨resolved, hresolved⟩

/-- A pattern whose wildcards are all given has bracketed events, unless a note is left out whose
number is too long to be reported. -/
theorem patternEvents_bracketed (pattern : Pattern) (ticks : Int)
    (placement : PatternEvents.Placement) (offsets : List (Text × Int))
    (given : ∀ e ∈ pattern.entries, ∀ w, e.wildcard = some w → ∃ pitch, (w, pitch) ∈ offsets) :
    ∃ resolved, pattern.assign offsets = .ok resolved ∧
      let occurrences := Cycle.lay Entry.ticks resolved.entries ticks.toNat
      (PatternEvents.Reportable placement occurrences →
        ∃ events, (patternEvents pattern ticks placement offsets).result = .ok events ∧
          PatternEvents.Bracketed placement ticks occurrences events) ∧
      (¬ PatternEvents.Reportable placement occurrences →
        (patternEvents pattern ticks placement offsets).result =
          .error (.invalid .integerLength)) := by
  obtain ⟨resolved, hresolved⟩ := pattern.exists_assign_eq_ok given
  have htiles : Tiles 0 ticks.toNat (Cycle.lay Entry.ticks resolved.entries ticks.toNat) :=
    Cycle.tiles_lay Entry.ticks_pos resolved.nonempty _
  obtain ⟨hreport, herror⟩ := PatternEvents.result_reportEach_skipped placement
    (Cycle.lay Entry.ticks resolved.entries ticks.toNat)
  refine ⟨resolved, hresolved, fun hok => ?_, fun hlong => ?_⟩
  · refine ⟨_, ?_, PatternEvents.bracketed_sorted htiles rfl⟩
    rw [PatternEvents.result_patternEvents hresolved, hreport hok]
    rfl
  · rw [PatternEvents.result_patternEvents hresolved, herror hlong]
    rfl

/-- A held wildcard and a note behind it: the two overlap. -/
theorem patternEvents_bracketed_overlapping :
    ∃ events, (patternEvents
        ⟨[⟨2, none, some ['#'], 100, true, by decide⟩, ⟨2, some 4, none, 90, false, by decide⟩],
          by simp⟩ 4 ⟨60, none⟩ [(['#'], 0)]).result = .ok events ∧
      (∀ n, Alternates (events.filter fun e => e.note = n)) ∧ Handover events 2 60 64 := by
  obtain ⟨resolved, hresolved, hok, -⟩ := patternEvents_bracketed
    ⟨[⟨2, none, some ['#'], 100, true, by decide⟩, ⟨2, some 4, none, 90, false, by decide⟩],
      by simp⟩ 4 ⟨60, none⟩ [(['#'], 0)] (by simp)
  cases hresolved
  obtain ⟨events, hevents, h⟩ := hok (by decide +kernel)
  exact ⟨events, hevents, h.alternates, h.handover 0 _ _ 60 64 rfl rfl rfl rfl rfl⟩

end Songsmith
