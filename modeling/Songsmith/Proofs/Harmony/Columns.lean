import Songsmith.Harmony.Stamping
import Songsmith.Proofs.Tiling
import Mathlib.Data.List.Basic

/-!
# The columns of a timeline

A timeline is three columns of equal length. Each is read back from the timeline that is made of
them (`Timeline.ofColumns_eq_ok`), and the queries at a tick read one entry of a column. The check
for consistency splits in the same way (`Timeline.flawFrom?_eq_none_iff`): either counter has to
count down to one again and again (`CountsDown`), and the chord has to change exactly behind a
counter of one (`ChangesAtOne`). The counters of lists of lengths do the former
(`countsDown_flatMap`).
-/

namespace Songsmith

/-! ## Counters -/

/-- The counters behind one that is `last` count down to one again and again, each time from a
positive number. -/
def CountsDown : (last : Int) → List Int → Prop
  | last, [] => last = 1
  | last, n :: rest => 0 < n ∧ (last ≠ 1 → n = last - 1) ∧ CountsDown n rest

@[simp] theorem countdown_zero : countdown 0 = [] := rfl

/-- A countdown begins with its length and goes on as the next shorter one. -/
theorem countdown_succ (n : Nat) : countdown (n + 1) = ((n + 1 : Nat) : Int) :: countdown n := by
  simp only [countdown, List.range_succ_eq_map, List.map_cons, List.map_map, Nat.sub_zero]
  congr 1
  refine List.map_congr_left fun i _ => ?_
  simp only [Function.comp_apply]
  omega

@[simp] theorem length_countdown (n : Nat) : (countdown n).length = n := by simp [countdown]

/-- What is left to count at a position. -/
theorem getElem?_countdown {n i : Nat} (h : i < n) :
    (countdown n)[i]? = some ((n : Int) - i) := by
  simp only [countdown, List.getElem?_map, List.getElem?_range h, Option.map_some]
  congr 1
  omega

/-- Counting down from below the last counter and then again. -/
theorem CountsDown.countdown_append {rest : List Int} (h : CountsDown 1 rest) (n : Nat) :
    CountsDown ((n + 1 : Nat) : Int) (countdown n ++ rest) := by
  induction n with
  | zero => simpa using h
  | succ n ih =>
    rw [countdown_succ, List.cons_append]
    exact ⟨by omega, fun _ => by omega, ih⟩

/-- The lengths of a list, counted down one after the other. -/
theorem countsDown_flatMap {ns : List Nat} (pos : ∀ n ∈ ns, 0 < n) :
    CountsDown 1 (ns.flatMap countdown) := by
  induction ns with
  | nil => rfl
  | cons n ns ih =>
    have hns := ih fun m hm => pos m (List.mem_cons_of_mem _ hm)
    obtain ⟨m, rfl⟩ := Nat.exists_eq_add_of_lt (pos n List.mem_cons_self)
    rw [List.flatMap_cons, Nat.zero_add, countdown_succ, List.cons_append]
    exact ⟨by omega, fun h => absurd rfl h, hns.countdown_append m⟩

/-- Counters fill the same number of ticks as the items that they belong to. -/
theorem length_counters {α : Type} (length : α → Nat) (xs : List α) :
    (xs.flatMap fun x => countdown (length x)).length = Cycle.total length xs :=
  Cycle.length_flatMap (fun _ => length_countdown _) xs

/-- The counters of a list of lengths say at every tick how far it is to the end of the length
around it. -/
theorem getElem?_counters {α : Type} (length : α → Nat) {pre post : List α} {x : α} {tick : Nat}
    (hlo : Cycle.total length pre ≤ tick) (hhi : tick < Cycle.total length pre + length x) :
    ((pre ++ x :: post).flatMap fun x => countdown (length x))[tick]? =
      some (((Cycle.total length pre + length x : Nat) : Int) - tick) := by
  rw [Cycle.getElem?_flatMap_around (fun _ => length_countdown _) hlo hhi,
    getElem?_countdown (by omega)]
  congr 1
  omega

/-- `stop` is the first tick behind `tick` at which something happens, or else the end. -/
structure FirstAfter (happens : Nat → Prop) (ticks tick stop : Nat) : Prop where
  lt : tick < stop
  le : stop ≤ ticks
  happens_stop : stop < ticks → happens stop
  not_between : ∀ u, tick < u → u < stop → ¬ happens u

/-- Only what happens strictly between the tick and the end matters. -/
theorem FirstAfter.congr {happens happens' : Nat → Prop} {ticks tick stop : Nat}
    (h : FirstAfter happens ticks tick stop)
    (heq : ∀ u, tick < u → u < ticks → (happens u ↔ happens' u)) :
    FirstAfter happens' ticks tick stop where
  lt := h.lt
  le := h.le
  happens_stop hstop := (heq stop h.lt hstop).1 (h.happens_stop hstop)
  not_between u hu hstop hu' :=
    h.not_between u hu hstop ((heq u hu (Nat.lt_of_lt_of_le hstop h.le)).2 hu')

namespace Timeline

/-- Chords with their counters, behind a last chord and its counter: none is missing, and a chord
differs from the one before exactly if the counter before is one. -/
def ChangesAtOne : (last : Option Chord) → (lastTicks : Int) → List (Option Chord × Int) → Prop
  | _, _, [] => True
  | last, lastTicks, (chord, ticks) :: rest =>
    chord ≠ none ∧ (sameChord chord last = true ↔ lastTicks ≠ 1) ∧ ChangesAtOne chord ticks rest

/-! ## The check -/

/-- Of two checks in a row none finds a flaw when neither does. -/
theorem ite_some_eq_none {c : Prop} [Decidable c] {flaw : Flaw} {other : Option Flaw} :
    (if c then some flaw else other) = none ↔ ¬ c ∧ other = none := by
  split
  · rename_i hc
    exact ⟨nofun, fun h => absurd hc h.1⟩
  · rename_i hc
    exact ⟨fun h => ⟨hc, h⟩, And.right⟩

/-- A slot has no flaw if it fits the slot before in both counters and in the chord. -/
theorem slotFlaw?_eq_none_iff {last : Last} (tick : Nat) (s : Slot) (hc : 0 < last.chordTicks)
    (hs : 0 < last.sectionTicks) :
    slotFlaw? last tick s = none ↔
      (0 < s.chordTicks ∧ (last.chordTicks ≠ 1 → s.chordTicks = last.chordTicks - 1)) ∧
      (0 < s.sectionTicks ∧ (last.sectionTicks ≠ 1 → s.sectionTicks = last.sectionTicks - 1)) ∧
      s.chord ≠ none ∧ (sameChord s.chord last.chord = true ↔ last.chordTicks ≠ 1) := by
  simp only [slotFlaw?, ite_some_eq_none, Bool.not_eq_true', and_true]
  constructor
  · rintro ⟨hchord, hc₁, hc₂, hs₁, hs₂, hchanged, hkept⟩
    refine ⟨⟨by omega, by omega⟩, ⟨by omega, by omega⟩, hchord, ?_, ?_⟩
    · intro hsame hone
      exact hkept ⟨hsame, hone⟩
    · intro hmore
      rw [← Bool.not_eq_false]
      intro hsame
      exact hchanged ⟨hsame, hmore⟩
  · rintro ⟨⟨hc₁, hc₂⟩, ⟨hs₁, hs₂⟩, hchord, hsame⟩
    refine ⟨hchord, by omega, by omega, by omega, by omega, ?_, ?_⟩
    · rintro ⟨hchanged, hmore⟩
      rw [hsame.2 hmore] at hchanged
      cases hchanged
    · rintro ⟨hkept, hone⟩
      exact hsame.1 hkept hone

/-- A timeline is consistent if both of its counters count down and its chord changes behind a
counter of one. -/
theorem flawFrom?_eq_none_iff (last : Last) (tick : Nat) (slots : List Slot)
    (hc : 0 < last.chordTicks) (hs : 0 < last.sectionTicks) :
    flawFrom? last tick slots = none ↔
      CountsDown last.chordTicks (slots.map Slot.chordTicks) ∧
      CountsDown last.sectionTicks (slots.map Slot.sectionTicks) ∧
      ChangesAtOne last.chord last.chordTicks (slots.map fun s => (s.chord, s.chordTicks)) := by
  induction slots generalizing last tick with
  | nil =>
    simp only [flawFrom?, ite_some_eq_none, ne_eq, not_not, List.map_nil, CountsDown, ChangesAtOne,
      and_true]
  | cons s rest ih =>
    simp only [flawFrom?, List.map_cons, CountsDown, ChangesAtOne]
    have hslot := slotFlaw?_eq_none_iff tick s hc hs
    cases hflaw : slotFlaw? last tick s with
    | some flaw =>
      rw [hflaw] at hslot
      refine ⟨nofun, ?_⟩
      rintro ⟨⟨hc₁, hc₂, -⟩, ⟨hs₁, hs₂, -⟩, hchord, hsame, -⟩
      exact nomatch hslot.2 ⟨⟨hc₁, hc₂⟩, ⟨hs₁, hs₂⟩, hchord, hsame⟩
    | none =>
      obtain ⟨⟨hc₁, hc₂⟩, ⟨hs₁, hs₂⟩, hchord, hsame⟩ := hslot.1 hflaw
      refine (ih ⟨s.chord, s.chordTicks, s.sectionTicks⟩ (tick + 1) hc₁ hs₁).trans ⟨?_, ?_⟩
      · rintro ⟨hc, hs, hchords⟩
        exact ⟨⟨hc₁, hc₂, hc⟩, ⟨hs₁, hs₂, hs⟩, hchord, hsame, hchords⟩
      · rintro ⟨⟨-, -, hc⟩, ⟨-, -, hs⟩, -, -, hchords⟩
        exact ⟨hc, hs, hchords⟩

/-! ## Columns -/

/-- Three columns of equal length make a timeline of which they are the columns. -/
theorem ofColumns_eq_ok {chords : List (Option Chord)} {chordTicks sectionTicks : List Int}
    (h₁ : chords.length = chordTicks.length) (h₂ : chordTicks.length = sectionTicks.length) :
    ∃ t, ofColumns chords chordTicks sectionTicks = .ok t ∧
      t.slots.toList.map Slot.chord = chords ∧
      t.slots.toList.map Slot.chordTicks = chordTicks ∧
      t.slots.toList.map Slot.sectionTicks = sectionTicks := by
  refine ⟨_, if_pos ⟨h₁, h₂⟩, ?_, ?_, ?_⟩
  all_goals
    apply List.ext_getElem
    · simp [h₁, h₂]
    · intro i _ _
      simp

variable {t : Timeline} {tick : Nat}

/-- The column of chords is as long as the timeline. -/
theorem ticks_eq_length {chords : List (Option Chord)}
    (h : t.slots.toList.map Slot.chord = chords) : t.ticks = chords.length := by
  rw [← h]
  simp [ticks]

/-- At a tick that is not negative, a slot is an entry of the list. -/
theorem slot?_natCast : t.slot? tick = t.slots.toList[tick]? := by
  simp [slot?]

/-- The chord at a tick is the entry of the column of chords. -/
theorem chord?_eq {chords : List (Option Chord)} (h : t.slots.toList.map Slot.chord = chords)
    {chord : Option Chord} (hc : chords[tick]? = some chord) : t.chord? tick = chord := by
  subst h
  rw [List.getElem?_map, Option.map_eq_some_iff] at hc
  obtain ⟨s, hs, rfl⟩ := hc
  rw [chord?, slot?_natCast, hs, Option.bind_some]

/-- The chord counter at a tick is the entry of its column. -/
theorem chordTicks_eq {counters : List Int} (h : t.slots.toList.map Slot.chordTicks = counters)
    {n : Int} (hn : counters[tick]? = some n) : t.chordTicks tick = n := by
  subst h
  rw [chordTicks, slot?_natCast, ← List.getElem?_map, hn, Option.getD_some]

/-- The section counter at a tick is the entry of its column. -/
theorem sectionTicks_eq {counters : List Int}
    (h : t.slots.toList.map Slot.sectionTicks = counters)
    {n : Int} (hn : counters[tick]? = some n) : t.sectionTicks tick = n := by
  subst h
  rw [sectionTicks, slot?_natCast, ← List.getElem?_map, hn, Option.getD_some]

end Timeline

end Songsmith
