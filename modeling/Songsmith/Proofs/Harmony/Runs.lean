import Songsmith.Proofs.Harmony.Consistency
import Mathlib.Data.List.Forall2

/-!
# Runs of chords

Joining neighbours of equal harmony changes neither the number of ticks nor the harmony of any of
them (`Run.sameHarmony_merge`), and leaves no two neighbours of equal harmony
(`Run.isChain_merge`). So the columns of joined runs are those of a consistent timeline
(`Run.consistsOfRuns`), and the counter at a tick says how far it is to the next change of harmony
(`Run.exists_firstAfter`).
-/

namespace Songsmith

namespace Run

/-! ## Joining -/

/-- A joined run has the chord of one of the runs. -/
theorem exists_chord_eq_of_mem_merge {runs : List Run} {m : Run} (h : m ∈ merge runs) :
    ∃ r ∈ runs, r.chord = m.chord := by
  induction runs generalizing m with
  | nil => cases h
  | cons r runs ih =>
    rw [merge, List.foldr_cons, ← merge] at h
    cases hm : merge runs with
    | nil =>
      rw [hm, prepend, List.mem_singleton] at h
      exact ⟨r, List.mem_cons_self, by rw [h]⟩
    | cons s rest =>
      have tail {m : Run} (h : m ∈ s :: rest) : ∃ r' ∈ r :: runs, r'.chord = m.chord := by
        obtain ⟨r', hr', heq⟩ := ih (hm ▸ h)
        exact ⟨r', List.mem_cons_of_mem _ hr', heq⟩
      rw [hm, prepend] at h
      split at h
      · rcases List.mem_cons.1 h with rfl | h
        · exact ⟨r, List.mem_cons_self, rfl⟩
        · exact tail (List.mem_cons_of_mem _ h)
      · rcases List.mem_cons.1 h with rfl | h
        · exact ⟨m, List.mem_cons_self, rfl⟩
        · exact tail h

/-- Merging leaves no run without ticks. -/
theorem pos_of_mem_merge {runs : List Run} (pos : ∀ r ∈ runs, 0 < r.ticks) :
    ∀ r ∈ merge runs, 0 < r.ticks := by
  induction runs with
  | nil => nofun
  | cons r runs ih =>
    have hr := pos r List.mem_cons_self
    have hruns := ih fun r hr => pos r (List.mem_cons_of_mem _ hr)
    rw [merge, List.foldr_cons, ← merge]
    cases hm : merge runs with
    | nil => simpa [prepend] using hr
    | cons s rest =>
      rw [hm] at hruns
      rw [prepend]
      split
      · intro m h
        rcases List.mem_cons.1 h with rfl | h
        · exact Nat.add_pos_left hr _
        · exact hruns m (List.mem_cons_of_mem _ h)
      · intro m h
        rcases List.mem_cons.1 h with rfl | h
        · exact hr
        · exact hruns m h

/-- No two neighbours have equal harmony after joining. -/
theorem isChain_merge (runs : List Run) :
    (merge runs).IsChain fun r s => s.chord.sameHarmony r.chord = false := by
  induction runs with
  | nil => exact .nil
  | cons r runs ih =>
    rw [merge, List.foldr_cons, ← merge]
    cases hm : merge runs with
    | nil => exact .singleton _
    | cons s rest =>
      rw [hm] at ih
      rw [prepend]
      split
      · next h =>
        refine List.isChain_cons.2 ⟨fun q hq => Bool.eq_false_iff.2 fun hqr => ?_, ih.tail⟩
        have := Chord.sameHarmony_trans hqr (Chord.sameHarmony_comm s.chord r.chord ▸ h)
        exact Bool.false_ne_true ((ih.rel_head? hq).symm.trans this)
      · next h => exact List.isChain_cons_cons.2 ⟨by simpa using h, ih⟩

/-- The first run begins with the first chord. -/
theorem chord_of_head?_merge {r m : Run} {runs : List Run}
    (h : (merge (r :: runs)).head? = some m) :
    m.chord = r.chord := by
  rw [merge, List.foldr_cons, ← merge] at h
  cases hm : merge runs with
  | nil =>
    rw [hm] at h
    cases h
    rfl
  | cons s rest =>
    rw [hm, prepend] at h
    split at h
    · cases h
      rfl
    · cases h
      rfl

/-- Runs of which no two neighbours have equal harmony are joined already. -/
theorem merge_eq_self {runs : List Run}
    (hchain : runs.IsChain fun r s => s.chord.sameHarmony r.chord = false) :
    merge runs = runs := by
  induction runs with
  | nil => rfl
  | cons r runs ih =>
    rw [merge, List.foldr_cons, ← merge, ih hchain.tail]
    cases runs with
    | nil => rfl
    | cons s rest =>
      rw [prepend, if_neg]
      rw [(List.isChain_cons_cons.1 hchain).1]
      exact Bool.false_ne_true

/-- Two columns of chords are equal up to octave and text. -/
abbrev SameHarmonies : List (Option Chord) → List (Option Chord) → Prop :=
  List.Forall₂ fun c d => ∃ c' d', c = some c' ∧ d = some d' ∧ c'.sameHarmony d' = true

/-- Equally many chords of one harmony are equal up to octave. -/
theorem sameHarmonies_replicate (n : Nat) {c d : Chord} (h : c.sameHarmony d = true) :
    SameHarmonies (List.replicate n (some c)) (List.replicate n (some d)) := by
  induction n with
  | zero => exact .nil
  | succ n ih => exact .cons ⟨c, d, rfl, rfl, h⟩ ih

/-- Equality up to octave is transitive. -/
theorem SameHarmonies.trans {xs ys zs : List (Option Chord)} (h : SameHarmonies xs ys)
    (h' : SameHarmonies ys zs) : SameHarmonies xs zs := by
  induction h generalizing zs with
  | nil => exact h'
  | cons hcd _ ih =>
    obtain ⟨c, d, rfl, rfl, hcd⟩ := hcd
    cases h' with
    | cons hde htail =>
      obtain ⟨d', e, hd, rfl, hde⟩ := hde
      cases hd
      exact .cons ⟨c, e, rfl, rfl, Chord.sameHarmony_trans hcd hde⟩ (ih htail)

/-- Joining keeps the harmony of every tick. -/
theorem sameHarmony_merge (runs : List Run) :
    SameHarmonies ((merge runs).flatMap chords) (runs.flatMap chords) := by
  induction runs with
  | nil => exact .nil
  | cons r runs ih =>
    have hr := sameHarmonies_replicate r.ticks (Chord.sameHarmony_refl r.chord)
    rw [merge, List.foldr_cons, ← merge]
    cases hm : merge runs with
    | nil =>
      rw [hm] at ih
      exact List.rel_append hr ih
    | cons s rest =>
      rw [hm] at ih
      rw [prepend]
      split
      · next h =>
        have hs := sameHarmonies_replicate s.ticks (Chord.sameHarmony_comm s.chord r.chord ▸ h)
        have hrest : SameHarmonies (rest.flatMap chords) (rest.flatMap chords) :=
          List.forall₂_same.2 fun c hc => by
            obtain ⟨q, -, hq⟩ := List.mem_flatMap.1 hc
            obtain ⟨-, rfl⟩ := List.mem_replicate.1 hq
            exact ⟨q.chord, q.chord, rfl, rfl, Chord.sameHarmony_refl _⟩
        have hjoined : SameHarmonies (List.replicate s.ticks (some r.chord) ++ rest.flatMap chords)
            ((s :: rest).flatMap chords) := List.rel_append hs hrest
        rw [List.flatMap_cons, chords, List.replicate_add, List.append_assoc]
        exact List.rel_append hr (hjoined.trans ih)
      · exact List.rel_append hr ih

/-- Equality up to octave is symmetric. -/
theorem SameHarmonies.symm {xs ys : List (Option Chord)} (h : SameHarmonies xs ys) :
    SameHarmonies ys xs := by
  refine h.flip.imp fun c d hcd => ?_
  obtain ⟨d', c', rfl, rfl, hsame⟩ := hcd
  exact ⟨c', d', rfl, rfl, Chord.sameHarmony_comm d' c' ▸ hsame⟩

/-- Where one column has a chord, the other one has a chord of the same harmony. -/
theorem SameHarmonies.exists_getElem? {xs ys : List (Option Chord)} (h : SameHarmonies xs ys)
    {i : Nat} {c : Chord} (hc : xs[i]? = some (some c)) :
    ∃ d, ys[i]? = some (some d) ∧ c.sameHarmony d = true := by
  induction h generalizing i with
  | nil => cases hc
  | cons hcd _ ih =>
    cases i with
    | zero =>
      obtain ⟨c', d', rfl, rfl, hcd⟩ := hcd
      cases hc
      exact ⟨d', rfl, hcd⟩
    | succ i => exact ih hc

/-- Two chords at the same tick have the same harmony. -/
theorem SameHarmonies.getElem? {xs ys : List (Option Chord)} (h : SameHarmonies xs ys) {i : Nat}
    {c d : Chord} (hc : xs[i]? = some (some c)) (hd : ys[i]? = some (some d)) :
    c.sameHarmony d = true := by
  obtain ⟨d', hd', hsame⟩ := h.exists_getElem? hc
  cases hd.symm.trans hd'
  exact hsame

/-- A run has a chord for each of its ticks. -/
theorem length_chords (r : Run) : r.chords.length = r.ticks := List.length_replicate

/-- Joining keeps the number of ticks. -/
theorem total_merge (runs : List Run) :
    Cycle.total Run.ticks (merge runs) = Cycle.total Run.ticks runs := by
  rw [← Cycle.length_flatMap length_chords, ← Cycle.length_flatMap length_chords]
  exact (sameHarmony_merge runs).length_eq

/-! ## The columns of runs -/

/-- The chords and the counters of runs are those of runs in a timeline, if no run is empty and
neighbours have different harmonies. -/
theorem consistsOfRuns {runs : List Run} (pos : ∀ r ∈ runs, 0 < r.ticks)
    (hchain : runs.IsChain fun r s => s.chord.sameHarmony r.chord = false) :
    Timeline.ConsistsOfRuns (runs.map fun r => List.replicate r.ticks r.chord)
      (runs.flatMap chords) (runs.flatMap fun r => countdown r.ticks) where
  nonempty := by
    intro run hrun
    obtain ⟨r, hr, rfl⟩ := List.mem_map.1 hrun
    have := pos r hr
    rw [ne_eq, List.replicate_eq_nil_iff]
    omega
  chords_eq := by
    rw [List.map_flatten, List.map_map, List.flatMap_def]
    simp only [Function.comp_def, List.map_replicate]
    rfl
  counters_eq := by simp only [List.flatMap_map, List.length_replicate]
  constant := by
    intro run hrun c hc d hd
    obtain ⟨r, -, rfl⟩ := List.mem_map.1 hrun
    rw [List.eq_of_mem_replicate hc, List.eq_of_mem_replicate hd, Chord.same_refl]
  changes := by
    rw [List.isChain_map]
    refine hchain.imp fun r s hrs c hc d hd => ?_
    rw [List.eq_of_mem_replicate hc, List.eq_of_mem_replicate hd]
    refine Bool.eq_false_iff.2 fun hsame => ?_
    rw [Chord.sameHarmony_comm, Chord.sameHarmony_of_same hsame] at hrs
    cases hrs

/-- At every tick of a run there is its chord. -/
theorem getElem?_chords {runs : List Run} {o : Occurrence Run} {tick : Nat}
    (h : o ∈ Cycle.layOnce Run.ticks 0 runs) (hlo : o.start ≤ tick)
    (hhi : tick < o.start + o.ticks) :
    (runs.flatMap chords)[tick]? = some (some o.item.chord) := by
  obtain ⟨pre, post, hsplit, hstart, hticks⟩ := Cycle.exists_split_of_mem_layOnce h
  rw [Nat.zero_add] at hstart
  rw [hsplit, Cycle.getElem?_flatMap_around length_chords (by omega) (by omega), chords,
    List.getElem?_replicate_of_lt (by omega)]

/-- At every tick there is a chord, and the counter says how far it is to the first one of another
harmony. -/
theorem exists_firstAfter (runs : List Run) (pos : ∀ r ∈ runs, 0 < r.ticks)
    (hchain : runs.IsChain fun r s => s.chord.sameHarmony r.chord = false) {tick : Nat}
    (h : tick < Cycle.total Run.ticks runs) :
    ∃ (c : Chord) (stop : Nat), (runs.flatMap chords)[tick]? = some (some c) ∧
      (runs.flatMap fun r => countdown r.ticks)[tick]? = some ((stop : Int) - tick) ∧
      FirstAfter (fun u => ∃ d, (runs.flatMap chords)[u]? = some (some d) ∧
        d.sameHarmony c = false) (Cycle.total Run.ticks runs) tick stop := by
  obtain ⟨pre, r, post, rfl, hlo, hhi⟩ := Cycle.exists_around h
  have inside {u : Nat} (hlo : Cycle.total Run.ticks pre ≤ u)
      (hhi : u < Cycle.total Run.ticks pre + r.ticks) :
      ((pre ++ r :: post).flatMap chords)[u]? = some (some r.chord) := by
    rw [Cycle.getElem?_flatMap_around length_chords hlo hhi, chords,
      List.getElem?_replicate_of_lt (by omega)]
  refine ⟨r.chord, _, inside hlo hhi, getElem?_counters _ hlo hhi, hhi, ?_, ?_, ?_⟩
  · rw [Cycle.total_append, Cycle.total_cons]
    omega
  · -- The run behind starts there, and neighbours have different harmonies.
    intro hstop
    cases post with
    | nil => simp [Cycle.total_append] at hstop
    | cons s post =>
      have hs := pos s (by simp)
      have hat : ((pre ++ [r] ++ s :: post).flatMap chords)[Cycle.total Run.ticks pre + r.ticks]? =
          (chords s)[Cycle.total Run.ticks pre + r.ticks - Cycle.total Run.ticks (pre ++ [r])]? :=
        Cycle.getElem?_flatMap_around length_chords (by simp [Cycle.total_append])
          (by simp [Cycle.total_append]; omega)
      rw [List.append_assoc, List.singleton_append] at hat
      refine ⟨s.chord, ?_, (List.isChain_append_cons_cons.1 hchain).2.1⟩
      rw [hat, chords, List.getElem?_replicate_of_lt (by simp [Cycle.total_append]; omega)]
  · rintro u hu hstop ⟨d, hd, hne⟩
    rw [inside (by omega) hstop] at hd
    cases hd
    simp at hne

end Run

/-- A timeline whose columns are those of runs and sections is consistent, if none of them is empty
and neighbouring runs have different harmonies. -/
theorem Timeline.flaw?_eq_none_of_columns {t : Timeline} {runs : List Run} {sections : List Nat}
    (hchords : t.slots.toList.map Slot.chord = runs.flatMap Run.chords)
    (hcounters : t.slots.toList.map Slot.chordTicks = runs.flatMap fun r => countdown r.ticks)
    (hsections : t.slots.toList.map Slot.sectionTicks = sections.flatMap countdown)
    (pos : ∀ r ∈ runs, 0 < r.ticks)
    (hchain : runs.IsChain fun r s => s.chord.sameHarmony r.chord = false)
    (pos' : ∀ n ∈ sections, 0 < n) : t.flaw? = none := by
  have hruns := Run.consistsOfRuns pos hchain
  rw [← hchords, ← hcounters] at hruns
  exact (flaw?_eq_none_iff t).2 ⟨⟨_, hruns⟩, sections, pos', hsections⟩

end Songsmith
