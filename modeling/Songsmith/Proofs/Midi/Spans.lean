import Songsmith.Midi.Event
import Songsmith.Proofs.Tiling

/-!
# The notes behind the events of a pattern

The events of a pattern are caused by one occurrence after the other, and the release of a held note
is caused by the occurrence after its own. Put together again, every occurrence that strikes a note
has one strike and one release, at its two ends (`PatternEvents.span`), and what is caused is a
rearrangement of these spans (`PatternEvents.causedEvents_perm`). The phase of a release depends on
the note that the next occurrence strikes (`PatternEvents.releasePhase`).
-/

namespace Songsmith

namespace PatternEvents

open scoped List

section
variable (p : Placement)

/-- The phase in which a held note is released when the given occurrence, if any, comes next. -/
def handoverPhase (n : Int) : Option (Occurrence Entry) → Phase
  | none => .release
  | some next =>
    if (struck? p next).isSome ∧ struck? p next ≠ some n then .legatoRelease else .release

/-- The phase in which the note of an occurrence is released. -/
def releasePhase (o : Occurrence Entry) (n : Int) (next : Option (Occurrence Entry)) : Phase :=
  if o.item.legato then handoverPhase p n next else .release

/-- The strike and the release of the note of an occurrence. -/
def span (o : Occurrence Entry) (next : Option (Occurrence Entry)) : List PhasedEvent :=
  (struck? p o).toList.flatMap fun n =>
    [⟨.strike, ⟨o.start, .on, n, o.item.velocity⟩⟩,
      ⟨releasePhase p o n next, ⟨o.start + o.ticks, .off, n, 0⟩⟩]

/-- The strikes and the releases of all notes. -/
def spans : List (Occurrence Entry) → List PhasedEvent
  | [] => []
  | o :: os => span p o os.head? ++ spans os

/-- The release of a note that is held at a tick where the given occurrence, if any, starts. -/
def pending (tick : Nat) (held : Option Int) (next : Option (Occurrence Entry)) :
    List PhasedEvent :=
  held.toList.map fun n => ⟨handoverPhase p n next, ⟨tick, .off, n, 0⟩⟩

/-- The events that occurrences cause, before the first of which the note `held` is held. -/
def causedAfter (ticks : Nat) : Option Int → List (Occurrence Entry) → List PhasedEvent
  | held, [] => lastRelease ticks held
  | held, o :: os => occurrenceEvents p held o ++ causedAfter ticks (heldAfter? p o) os

end

section
variable {p : Placement}

/-- `causedEvents` goes over the occurrences from the front. -/
theorem causedEvents_eq (ticks : Nat) (os : List (Occurrence Entry)) :
    causedEvents p ticks os = causedAfter p ticks none os := by
  suffices h : ∀ held,
      ((held :: os.map (heldAfter? p)).zip os).flatMap (fun x => occurrenceEvents p x.1 x.2)
        ++ lastRelease ticks ((os.map (heldAfter? p)).getLast?.getD held) =
      causedAfter p ticks held os from h none
  induction os with
  | nil => intro held; rfl
  | cons o os ih =>
    intro held
    rw [causedAfter, ← ih (heldAfter? p o), List.map_cons, List.zip_cons_cons, List.flatMap_cons,
      List.append_assoc, List.getLast?_cons]
    rfl

/-- An occurrence and what it leaves to the next one make up its span. -/
theorem span_perm (o : Occurrence Entry) (next : Option (Occurrence Entry)) :
    (strikes o (struck? p o) ++ ownRelease o (struck? p o) ++
      pending p (o.start + o.ticks) (heldAfter? p o) next).Perm (span p o next) := by
  unfold strikes ownRelease pending heldAfter? span releasePhase
  cases struck? p o <;> cases o.item.legato <;> simp

/-- What is caused after a note is held is its release, and the spans. -/
theorem causedAfter_perm {start stop : Nat} {os : List (Occurrence Entry)} (h : Tiles start stop os)
    (held : Option Int) :
    (causedAfter p stop held os).Perm (pending p start held os.head? ++ spans p os) := by
  induction h generalizing held with
  | nil => simp [causedAfter, pending, lastRelease, handoverPhase, spans]
  | @cons o os stop _ _ ih =>
    rw [causedAfter, occurrenceEvents, spans]
    calc strikes o (struck? p o) ++ heldRelease o held (struck? p o) ++
            ownRelease o (struck? p o) ++ causedAfter p stop (heldAfter? p o) os
        ~ strikes o (struck? p o) ++ pending p o.start held (some o) ++
            ownRelease o (struck? p o) ++
            (pending p (o.start + o.ticks) (heldAfter? p o) os.head? ++ spans p os) :=
          (ih (heldAfter? p o)).append_left _
      _ ~ pending p o.start held (some o) ++ strikes o (struck? p o) ++
            ownRelease o (struck? p o) ++
            (pending p (o.start + o.ticks) (heldAfter? p o) os.head? ++ spans p os) :=
          (List.perm_append_comm.append_right _).append_right _
      _ = pending p o.start held (some o) ++ ((strikes o (struck? p o) ++
            ownRelease o (struck? p o) ++
            pending p (o.start + o.ticks) (heldAfter? p o) os.head?) ++ spans p os) := by
          simp only [List.append_assoc]
      _ ~ pending p o.start held (some o) ++ (span p o os.head? ++ spans p os) :=
          ((span_perm o os.head?).append_right _).append_left _

/-- The events that are caused are the strikes and the releases of all notes. -/
theorem causedEvents_perm {start stop : Nat} {os : List (Occurrence Entry)}
    (h : Tiles start stop os) : (causedEvents p stop os).Perm (spans p os) := by
  rw [causedEvents_eq]
  exact causedAfter_perm h none

/-- An event of a span is the strike or the release of its note. -/
theorem mem_span {e : PhasedEvent} {o : Occurrence Entry} {next : Option (Occurrence Entry)} :
    e ∈ span p o next ↔ ∃ n, struck? p o = some n ∧
      (e = ⟨.strike, ⟨o.start, .on, n, o.item.velocity⟩⟩ ∨
        e = ⟨releasePhase p o n next, ⟨o.start + o.ticks, .off, n, 0⟩⟩) := by
  simp [span]

/-- An event of the spans belongs to one occurrence. -/
theorem mem_spans {e : PhasedEvent} {os : List (Occurrence Entry)} :
    e ∈ spans p os ↔ ∃ (k : Nat) (o : Occurrence Entry), os[k]? = some o ∧
      e ∈ span p o os[k + 1]? := by
  induction os with
  | nil => simp [spans]
  | cons o os ih =>
    rw [spans, List.mem_append, ih]
    constructor
    · rintro (h | ⟨k, o', ho', h⟩)
      · exact ⟨0, o, rfl, by rwa [List.head?_eq_getElem?] at h⟩
      · exact ⟨k + 1, o', ho', h⟩
    · rintro ⟨k, o', ho', h⟩
      cases k with
      | zero =>
        cases ho'
        rw [List.head?_eq_getElem?]
        exact .inl h
      | succ k => exact .inr ⟨k, o', ho', h⟩

end

end PatternEvents

end Songsmith
