import Songsmith.Harmony.Query
import Songsmith.Proofs.Harmony.Consistency

/-!
# Walks over consistent timelines

The runs of chords and the sections are found by walking: at every tick that is met, the counter
says how far it is to the next one. Over a column of counters that count down the lengths of some
items, a walk meets the first tick of every item and nothing else (`Timeline.exists_walk`). The
columns of a timeline that passes the check are of that kind, so that its walks end, and what they
meet agrees with what the queries at single ticks say: about the runs of chords
(`Timeline.RunsAgree`) and about the sections (`Timeline.SectionsAgree`).
`Timeline.queries_agree` puts both together.
-/

namespace Songsmith

open Songsmith.Cycle

namespace Timeline

/-! ## Walking -/

section
variable {α : Type} {t : Timeline} {step : Slot → Int} {length : α → Nat} {pre xs : List α}

/-- A walk meets an occurrence in the slot at its first tick, where the counter is its length. -/
structure Meets (t : Timeline) (step : Slot → Int) (o : Occurrence α) (met : Int × Slot) :
    Prop where
  tick : met.1 = o.start
  slot : t.slots.toList[o.start]? = some met.2
  counter : step met.2 = o.ticks

/-- Around a tick of the song is the entry of the list. -/
theorem slotAround?_natCast (t : Timeline) (tick : Nat) :
    t.slotAround? tick = t.slots.toList[tick]? := by
  rw [slotAround?, if_neg (by omega), slot?_natCast]

/-- The counters of the items fill the timeline. -/
theorem ticks_eq_total
    (hcolumn : t.slots.toList.map step = xs.flatMap fun x => countdown (length x)) :
    t.ticks = total length xs := by
  rw [← length_counters, ← hcolumn, List.length_map, Array.length_toList, ticks]

/-- From the first tick of an item on, a walk meets that item and all behind it. -/
theorem walkWithin_eq_ok {fuel : Nat} (visited : List (Int × Slot))
    (hcolumn : t.slots.toList.map step = (pre ++ xs).flatMap fun x => countdown (length x))
    (pos : ∀ x ∈ xs, 0 < length x) (hfuel : xs.length < fuel) :
    ∃ met, t.walkWithin step t.ticks fuel (total length pre : Nat) visited =
        .ok (visited.reverse ++ met) ∧
      List.Forall₂ (Meets t step) (layOnce length (total length pre) xs) met := by
  have hticks := ticks_eq_total hcolumn
  rw [total_append] at hticks
  induction xs generalizing pre fuel visited with
  | nil =>
    obtain ⟨fuel, rfl⟩ := Nat.exists_eq_succ_of_ne_zero (Nat.ne_zero_of_lt hfuel)
    refine ⟨[], ?_, .nil⟩
    rw [walkWithin, if_neg (by simp at hticks; omega), List.append_nil]
  | cons x xs ih =>
    obtain ⟨fuel, rfl⟩ := Nat.exists_eq_succ_of_ne_zero (Nat.ne_zero_of_lt hfuel)
    have hx := pos x List.mem_cons_self
    rw [total_cons] at hticks
    have hcounter : (t.slots.toList.map step)[total length pre]? = some (length x : Int) := by
      rw [hcolumn, getElem?_counters length (Nat.le_refl _) (by omega)]
      congr 1
      omega
    rw [List.getElem?_map] at hcounter
    obtain ⟨s, hs, hstep⟩ := Option.map_eq_some_iff.1 hcounter
    -- The next position is the first tick of the item behind.
    have hnext : ((total length pre : Nat) : Int) + step s = (total length (pre ++ [x]) : Nat) := by
      rw [hstep, total_append, total_cons, total_nil]
      omega
    have hcolumn' : t.slots.toList.map step =
        (pre ++ [x] ++ xs).flatMap fun x => countdown (length x) := by simpa using hcolumn
    obtain ⟨met, hmet, hall⟩ := ih (((total length pre : Nat), s) :: visited) hcolumn'
      (fun y hy => pos y (List.mem_cons_of_mem _ hy)) (Nat.lt_of_succ_lt_succ hfuel)
      (by rw [hticks, total_append, total_cons, total_nil]; omega)
    refine ⟨((total length pre : Nat), s) :: met, ?_, .cons ⟨rfl, hs, hstep⟩ ?_⟩
    · rw [walkWithin, if_pos (by omega), slotAround?_natCast, hs]
      simp only [hnext, hmet, List.reverse_cons, List.append_assoc, List.singleton_append]
    · rw [total_append, total_cons, total_nil, Nat.add_zero] at hall
      exact hall

/-- Over the counters of items a walk meets every item, in order. -/
theorem exists_walk
    (hcolumn : t.slots.toList.map step = xs.flatMap fun x => countdown (length x))
    (pos : ∀ x ∈ xs, 0 < length x) :
    ∃ met, t.walk step t.ticks 0 = .ok met ∧
      List.Forall₂ (Meets t step) (layOnce length 0 xs) met := by
  have hle := (tiles_layOnce 0 pos).length_le
  rw [length_layOnce, ← ticks_eq_total hcolumn] at hle
  rw [← List.nil_append xs] at hcolumn
  exact walkWithin_eq_ok [] hcolumn pos (by omega)

/-- What is read off the slots that are met can be read off the items. -/
theorem map_met {β : Type} {os : List (Occurrence α)} {met : List (Int × Slot)}
    {f : Occurrence α → β} {g : Int × Slot → β} (h : List.Forall₂ (Meets t step) os met)
    (hfg : ∀ o ∈ os, ∀ m, Meets t step o m → g m = f o) : met.map g = os.map f := by
  induction h with
  | nil => rfl
  | cons hm _ ih =>
    rw [List.map_cons, List.map_cons, hfg _ List.mem_cons_self _ hm,
      ih fun o ho => hfg o (List.mem_cons_of_mem _ ho)]

end

/-! ## Runs of chords -/

/-- The runs that are found tile the song, and the queries at a tick say the chord of the run around
it and how far it is to the end of that run. -/
structure RunsAgree (t : Timeline) (os : List (Occurrence (Option Chord))) : Prop where
  runs_eq : t.runs = .ok (os.map fun o => ⟨o.start, o.item, o.ticks⟩)
  tiles : Tiles 0 t.ticks os
  chord : ∀ o ∈ os, ∀ tick, o.start ≤ tick → tick < o.start + o.ticks →
    ∃ c d, o.item = some c ∧ t.chord? tick = some d ∧ d.same c = true
  chordTicks : ∀ o ∈ os, ∀ tick, o.start ≤ tick → tick < o.start + o.ticks →
    t.chordTicks tick = ((o.start + o.ticks : Nat) : Int) - tick

/-- The runs are found where the counters begin to count down the lengths of some items, with the
chords that stand there. -/
theorem runs_eq_ok {α : Type} {t : Timeline} {length : α → Nat} {xs : List α}
    (chord : α → Option Chord)
    (hcounters : t.slots.toList.map Slot.chordTicks = xs.flatMap fun x => countdown (length x))
    (pos : ∀ x ∈ xs, 0 < length x)
    (hchord : ∀ o ∈ layOnce length 0 xs,
      (t.slots.toList.map Slot.chord)[o.start]? = some (chord o.item)) :
    t.runs = .ok ((layOnce length 0 xs).map fun o => ⟨o.start, chord o.item, o.ticks⟩) := by
  obtain ⟨met, hmet, hall⟩ := exists_walk hcounters pos
  rw [runs, hmet]
  refine congrArg Except.ok (map_met hall fun o ho m hm => ?_)
  have hstart := hchord o ho
  rw [List.getElem?_map, hm.slot, Option.map_some, Option.some.injEq] at hstart
  simp only [hm.tick, hm.counter, hstart]

section
variable {t : Timeline} {runs : List (List Chord)}

/-- The chord at a tick of a run is one of those that the run consists of. -/
theorem ConsistsOfRuns.getElem?_chord
    (h : ConsistsOfRuns runs (t.slots.toList.map Slot.chord) (t.slots.toList.map Slot.chordTicks))
    {o : Occurrence (List Chord)} (ho : o ∈ layOnce List.length 0 runs) {tick : Nat}
    (hlo : o.start ≤ tick) (hhi : tick < o.start + o.ticks) :
    (t.slots.toList.map Slot.chord)[tick]? = o.item[tick - o.start]?.map some := by
  obtain ⟨pre, post, hruns, hstart, hticks⟩ := exists_split_of_mem_layOnce ho
  rw [Nat.zero_add] at hstart
  have hchords : runs.flatten.map some = runs.flatMap fun run => run.map some := by
    rw [List.map_flatten, List.flatMap_def]
  have hlength : ∀ run : List Chord, (run.map some).length = List.length run := fun _ =>
    List.length_map _
  rw [h.chords_eq, hchords, hruns, getElem?_flatMap_around hlength (by omega) (by omega),
    List.getElem?_map, hstart]

/-- The runs that a consistent timeline consists of are those that are found in it. -/
theorem ConsistsOfRuns.runsAgree
    (h : ConsistsOfRuns runs (t.slots.toList.map Slot.chord) (t.slots.toList.map Slot.chordTicks)) :
    RunsAgree t ((layOnce List.length 0 runs).map fun o => ⟨o.start, o.item.head?, o.ticks⟩) := by
  have pos : ∀ run ∈ runs, 0 < run.length := fun run hrun =>
    List.length_pos_iff.2 (h.nonempty run hrun)
  have htiles := tiles_layOnce 0 pos
  rw [Nat.zero_add, ← ticks_eq_total h.counters_eq] at htiles
  refine ⟨?_, htiles.map_item List.head?, ?_, ?_⟩
  · rw [List.map_map]
    refine runs_eq_ok List.head? h.counters_eq pos fun o ho => ?_
    obtain ⟨c, rest, hcons⟩ :=
      List.exists_cons_of_ne_nil (h.nonempty o.item (item_mem_of_mem_layOnce ho))
    obtain ⟨-, hticks, -⟩ := htiles.bounds ho
    rw [h.getElem?_chord ho (Nat.le_refl _) (by omega), Nat.sub_self, hcons]
    rfl
  · intro o' ho' tick hlo hhi
    obtain ⟨o, ho, rfl⟩ := List.mem_map.1 ho'
    obtain ⟨-, -, -, -, hticks⟩ := exists_split_of_mem_layOnce ho
    have hmem := item_mem_of_mem_layOnce ho
    dsimp only at hlo hhi ⊢
    have hindex : tick - o.start < o.item.length := by omega
    obtain ⟨c, rest, hcons⟩ := List.exists_cons_of_ne_nil (h.nonempty _ hmem)
    have hchord := h.getElem?_chord ho hlo hhi
    rw [List.getElem?_eq_getElem hindex, Option.map_some] at hchord
    refine ⟨c, _, by rw [hcons, List.head?_cons], chord?_eq rfl hchord, ?_⟩
    exact h.constant _ hmem _ (List.getElem_mem hindex) c (by rw [hcons]; exact List.mem_cons_self)
  · intro o' ho' tick hlo hhi
    obtain ⟨o, ho, rfl⟩ := List.mem_map.1 ho'
    obtain ⟨pre, post, hruns, hstart, hticks⟩ := exists_split_of_mem_layOnce ho
    dsimp only at hlo hhi ⊢
    have hcounters := h.counters_eq
    rw [hruns] at hcounters
    refine (chordTicks_eq hcounters (getElem?_counters List.length (by omega) (by omega))).trans ?_
    omega

end

/-! ## Sections -/

/-- The sections that are found tile the song, and the counter at a tick says how far it is to the
end of the section around it. -/
structure FindsSections (t : Timeline) (os : List (Occurrence Nat)) : Prop where
  starts_eq : t.sectionStarts = .ok (os.map fun o => (o.start : Int))
  tiles : Tiles 0 t.ticks os
  counter : ∀ o ∈ os, ∀ tick, o.start ≤ tick → tick < o.start + o.ticks →
    t.sectionTicks tick = ((o.start + o.ticks : Nat) : Int) - tick

/-- The queries about sections agree: with the number of the section around a tick one finds where
that section starts, and its counter leads to the start of the next one, or to the end of the song.
-/
structure SectionsAgree (t : Timeline) (starts : List Int) : Prop where
  starts_eq : t.sectionStarts = .ok starts
  count : t.sectionCount = .ok starts.length
  increasing : starts.Pairwise (· < ·)
  first : 0 < t.ticks → starts.head? = some 0
  number : ∀ tick : Nat, tick < t.ticks → ∃ k : Nat, k < starts.length ∧
    t.sectionNumber tick = .ok k ∧ (∃ first, t.sectionTick k = .ok first ∧ first ≤ tick) ∧
    (k + 1 < starts.length → t.sectionTick (k + 1 : Nat) = .ok (tick + t.sectionTicks tick)) ∧
    (k + 1 = starts.length → tick + t.sectionTicks tick = t.ticks)
  number_tick : ∀ k : Nat, k < starts.length →
    ∃ first, t.sectionTick k = .ok first ∧ t.sectionNumber first = .ok k

section
variable {t : Timeline}

/-- Sections that are counted down are found. -/
theorem findsSections {sections : List Nat} (pos : ∀ n ∈ sections, 0 < n)
    (hcolumn : t.slots.toList.map Slot.sectionTicks = sections.flatMap countdown) :
    FindsSections t (layOnce id 0 sections) := by
  have hticks : t.ticks = total id sections := ticks_eq_total hcolumn
  have htiles : Tiles 0 (0 + total id sections) (layOnce id 0 sections) := tiles_layOnce 0 pos
  rw [Nat.zero_add, ← hticks] at htiles
  refine ⟨?_, htiles, fun o ho tick hlo hhi => ?_⟩
  · obtain ⟨met, hmet, hall⟩ : ∃ met, t.walk Slot.sectionTicks t.ticks 0 = .ok met ∧
        List.Forall₂ (Meets t Slot.sectionTicks) (layOnce id 0 sections) met :=
      exists_walk hcolumn pos
    rw [sectionStarts, hmet]
    exact congrArg Except.ok (map_met hall fun o _ m hm => hm.tick)
  · obtain ⟨pre, post, rfl, hstart, hticks⟩ := exists_split_of_mem_layOnce ho
    refine (sectionTicks_eq hcolumn
      (getElem?_counters id (by omega) (by rw [← hticks]; omega))).trans ?_
    rw [hstart, hticks, Nat.zero_add]

namespace FindsSections

variable {os : List (Occurrence Nat)} {k : Nat} {o : Occurrence Nat}

/-- A section is found at the tick where it starts. -/
theorem sectionTick_eq (h : FindsSections t os) (hk : os[k]? = some o) :
    t.sectionTick k = .ok o.start := by
  rw [sectionTick, h.starts_eq, Except.map, if_pos (Int.natCast_nonneg k), Int.toNat_natCast,
    List.getElem?_map, hk]
  rfl

/-- The number of a section is found at each of its ticks. -/
theorem sectionNumber_eq (h : FindsSections t os) (hk : os[k]? = some o) {tick : Nat}
    (hlo : o.start ≤ tick) (hhi : tick < o.start + o.ticks) : t.sectionNumber tick = .ok k := by
  have hbounds := h.tiles.bounds (List.mem_of_getElem? hk)
  have hlt : tick < t.slots.toList.length := by
    rw [Array.length_toList]
    exact Nat.lt_of_lt_of_le hhi hbounds.2.2
  have hcount := h.tiles.length_takeWhile_start hk hlo hhi
  rw [sectionNumber, slot?_natCast, List.getElem?_eq_getElem hlt, h.starts_eq,
    Option.isNone_some, if_neg Bool.false_ne_true, Except.map]
  -- The first start is left out of the count, and it is not behind any tick.
  cases os with
  | nil => cases hk
  | cons first os =>
    have hfirst : first.start = 0 := h.tiles.start_eq rfl
    rw [List.takeWhile_cons, if_pos (decide_eq_true (by omega)), List.length_cons] at hcount
    rw [List.map_cons, List.drop_succ_cons, List.drop_zero, List.takeWhile_map, List.length_map,
      ← Nat.succ.inj hcount]
    simp only [Function.comp_def, Int.ofNat_le]

/-- What is found agrees. -/
theorem sectionsAgree (h : FindsSections t os) :
    SectionsAgree t (os.map fun o => (o.start : Int)) where
  starts_eq := h.starts_eq
  count := by rw [sectionCount, h.starts_eq, Except.map]
  increasing := by
    rw [List.pairwise_map]
    exact h.tiles.pairwise_start.imp Int.ofNat_lt.2
  first hpos := by
    obtain ⟨o, ho, -⟩ := h.tiles.exists_covering (Nat.le_refl 0) hpos
    obtain ⟨first, os, rfl⟩ := List.exists_cons_of_ne_nil (List.ne_nil_of_mem ho)
    rw [List.map_cons, List.head?_cons, h.tiles.start_eq (o := first) rfl]
    rfl
  number tick htick := by
    obtain ⟨o, ho, hlo, hhi⟩ := h.tiles.exists_covering (Nat.zero_le tick) htick
    obtain ⟨k, hk⟩ := List.getElem?_of_mem ho
    have hcounter := h.counter o ho tick hlo hhi
    have hstop : (tick : Int) + t.sectionTicks tick = ((o.start + o.ticks : Nat) : Int) := by omega
    refine ⟨k, ?_, h.sectionNumber_eq hk hlo hhi, ⟨o.start, h.sectionTick_eq hk, by omega⟩, ?_, ?_⟩
    · rw [List.length_map]
      exact (List.getElem?_eq_some_iff.1 hk).1
    · intro hnext
      rw [List.length_map] at hnext
      have hget := List.getElem?_eq_getElem hnext
      rw [hstop, h.tiles.end_eq hk hget]
      exact h.sectionTick_eq hget
    · intro hlast
      rw [List.length_map] at hlast
      rw [hstop, h.tiles.end_eq_stop hk hlast]
  number_tick k hk := by
    rw [List.length_map] at hk
    have hget := List.getElem?_eq_getElem hk
    obtain ⟨-, hpos, -⟩ := h.tiles.bounds (List.mem_of_getElem? hget)
    exact ⟨_, h.sectionTick_eq hget, h.sectionNumber_eq hget (Nat.le_refl _) (by omega)⟩

end FindsSections

end

/-- All queries about a timeline that passes the check tell the same of its runs of chords and of
its sections. -/
theorem queries_agree {t : Timeline} (h : t.check = .ok ()) :
    (∃ os, RunsAgree t os) ∧ ∃ starts, SectionsAgree t starts := by
  obtain ⟨⟨runs, hruns⟩, sections, pos, hsections⟩ :=
    (flaw?_eq_none_iff t).1 ((check_eq_ok_iff t).1 h)
  exact ⟨⟨_, hruns.runsAgree⟩, _, (findsSections pos hsections).sectionsAgree⟩

/-- A run that goes over the start of a section, and one of the same chord an octave higher. -/
theorem queries_agree_across :
    let t : Timeline := ⟨#[⟨some ⟨0, .major, 0, ['C']⟩, 3, 2⟩, ⟨some ⟨0, .major, 0, []⟩, 2, 1⟩,
      ⟨some ⟨0, .major, 0, ['C']⟩, 1, 2⟩, ⟨some ⟨0, .major, 1, ['C']⟩, 1, 1⟩]⟩
    t.check = .ok () ∧ (∃ os, RunsAgree t os) ∧ ∃ starts, SectionsAgree t starts := by
  intro t
  have hcheck : t.check = .ok () := by decide
  exact ⟨hcheck, queries_agree hcheck⟩

end Timeline

end Songsmith
