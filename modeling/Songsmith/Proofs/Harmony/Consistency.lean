import Songsmith.Proofs.Chord.Equality
import Songsmith.Proofs.Harmony.Columns
import Songsmith.Proofs.Outcome
import Mathlib.Data.List.Chain

/-!
# Consistent timelines

The check of a timeline looks at one slot after the other and remembers the one before. The
timelines that it accepts are described as a whole: the ticks are cut into runs, in each of which
the chord stays the same and its counter counts down from the length of the run to one, neighbouring
runs have different chords (`Timeline.ConsistsOfRuns`), and the counters of the sections are
countdowns one after the other. `Timeline.check_ofColumns_eq_ok_iff` says that there are no others.

What the check remembers is a slot, so the proof puts that slot in front of those still to come
(`Timeline.exists_runs`): the slot behind it either goes on with its run (`ConsistsOfRuns.extend`)
or begins another one (`ConsistsOfRuns.start`).
-/

namespace Songsmith

/-! ## Counters -/

/-- What counts down behind a counter is the rest of its countdown, and further countdowns. -/
theorem CountsDown.exists_countdowns {counters : List Int} {n : Nat}
    (h : CountsDown ((n + 1 : Nat) : Int) counters) :
    ∃ lengths : List Nat, (∀ m ∈ lengths, 0 < m) ∧
      counters = countdown n ++ lengths.flatMap countdown := by
  induction counters generalizing n with
  | nil =>
    have hn : ((n + 1 : Nat) : Int) = 1 := h
    obtain rfl : n = 0 := by omega
    exact ⟨[], nofun, rfl⟩
  | cons a counters ih =>
    obtain ⟨hpos, hnext, h⟩ := h
    obtain ⟨m, rfl⟩ : ∃ m : Nat, a = ((m + 1 : Nat) : Int) := ⟨(a - 1).toNat, by omega⟩
    obtain ⟨lengths, hlengths, rfl⟩ := ih h
    cases n with
    | zero =>
      refine ⟨(m + 1) :: lengths, ?_, ?_⟩
      · simpa using hlengths
      · simp [countdown_succ]
    | succ n =>
      have hm := hnext (by omega)
      obtain rfl : m = n := by omega
      refine ⟨lengths, hlengths, ?_⟩
      rw [countdown_succ, List.cons_append]

/-- Counters that count down to one again and again are countdowns of positive lengths. -/
theorem countsDown_one_iff {counters : List Int} :
    CountsDown 1 counters ↔
      ∃ lengths : List Nat, (∀ n ∈ lengths, 0 < n) ∧ counters = lengths.flatMap countdown := by
  constructor
  · intro h
    exact CountsDown.exists_countdowns (n := 0) h
  · rintro ⟨lengths, hlengths, rfl⟩
    exact countsDown_flatMap hlengths

namespace Timeline

/-! ## Runs -/

/-- The chords and their counters are those of runs, given by the chords at their ticks: no run is
empty, the chord of a run stays the same while its counter counts down from the length of the run to
one, and the chords of neighbouring runs are different. -/
structure ConsistsOfRuns (runs : List (List Chord)) (chords : List (Option Chord))
    (counters : List Int) : Prop where
  nonempty : ∀ run ∈ runs, run ≠ []
  chords_eq : chords = runs.flatten.map some
  counters_eq : counters = runs.flatMap fun run => countdown run.length
  constant : ∀ run ∈ runs, ∀ c ∈ run, ∀ d ∈ run, c.same d = true
  changes : runs.IsChain fun run next => ∀ c ∈ run, ∀ d ∈ next, c.same d = false

namespace ConsistsOfRuns

variable {runs : List (List Chord)} {run : List Chord} {chords : List (Option Chord)}
  {counters : List Int} {c d : Chord}

/-- The first run begins with the first chord, and its length is the first counter. -/
theorem exists_cons {n : Int}
    (h : ConsistsOfRuns runs (some c :: chords) (n :: counters)) :
    ∃ run rest, runs = (c :: run) :: rest ∧ n = ((run.length + 1 : Nat) : Int) := by
  obtain ⟨hne, hchords, hcounters, -, -⟩ := h
  cases runs with
  | nil => cases hchords
  | cons run rest =>
    obtain ⟨d, run, rfl⟩ := List.exists_cons_of_ne_nil (hne run List.mem_cons_self)
    simp only [List.flatten_cons, List.cons_append, List.map_cons, List.cons.injEq,
      Option.some.injEq] at hchords
    simp only [List.flatMap_cons, List.length_cons, countdown_succ, List.cons_append,
      List.cons.injEq] at hcounters
    obtain ⟨rfl, -⟩ := hchords
    exact ⟨run, rest, rfl, hcounters.1⟩

/-- A run of one tick in front, with another chord than the first run. -/
theorem start (h : ConsistsOfRuns runs chords counters)
    (hother : ∀ run ∈ runs.head?, ∀ d ∈ run, c.same d = false) :
    ConsistsOfRuns ([c] :: runs) (some c :: chords) (1 :: counters) where
  nonempty := by
    intro run hrun
    rcases List.mem_cons.1 hrun with rfl | hrun
    · exact List.cons_ne_nil _ _
    · exact h.nonempty run hrun
  chords_eq := by rw [h.chords_eq]; rfl
  counters_eq := by rw [h.counters_eq]; rfl
  constant := by
    intro run hrun
    rcases List.mem_cons.1 hrun with rfl | hrun
    · simp
    · exact h.constant run hrun
  changes := List.isChain_cons.2 ⟨by simpa using hother, h.changes⟩

/-- One more tick at the start of the first run, with the same chord. -/
theorem extend (h : ConsistsOfRuns ((d :: run) :: runs) chords counters) (hsame : c.same d = true) :
    ConsistsOfRuns ((c :: d :: run) :: runs) (some c :: chords)
      (((run.length + 2 : Nat) : Int) :: counters) where
  nonempty := by
    intro run' hrun
    rcases List.mem_cons.1 hrun with rfl | hrun
    · exact List.cons_ne_nil _ _
    · exact h.nonempty run' (List.mem_cons_of_mem _ hrun)
  chords_eq := by rw [h.chords_eq]; rfl
  counters_eq := by
    rw [h.counters_eq, List.flatMap_cons, List.flatMap_cons, List.length_cons, List.length_cons,
      List.length_cons, countdown_succ (run.length + 1), List.cons_append]
  constant := by
    have hd : ∀ e ∈ c :: d :: run, d.same e = true := by
      intro e he
      rcases List.mem_cons.1 he with rfl | he
      · rwa [Chord.same_comm]
      · exact h.constant _ List.mem_cons_self d List.mem_cons_self e he
    intro run' hrun
    rcases List.mem_cons.1 hrun with rfl | hrun
    · intro e he e' he'
      rw [← Chord.same_congr_left (hd e he)]
      exact hd e' he'
    · exact h.constant run' (List.mem_cons_of_mem _ hrun)
  changes := by
    refine List.isChain_cons.2 ⟨fun next hnext e he => ?_, (List.isChain_cons.1 h.changes).2⟩
    have hdiffer := (List.isChain_cons.1 h.changes).1 next hnext
    rcases List.mem_cons.1 he with rfl | he
    · intro e' he'
      rw [Chord.same_congr_left hsame]
      exact hdiffer d List.mem_cons_self e' he'
    · exact hdiffer e he

end ConsistsOfRuns

/-! ## The slots of runs -/

/-- What is consistent behind a chord is consistent behind an equal one. -/
theorem ChangesAtOne.congr {c d : Chord} {last : Int} {slots : List (Option Chord × Int)}
    (h : ChangesAtOne (some c) last slots) (hsame : c.same d = true) :
    ChangesAtOne (some d) last slots := by
  cases slots with
  | nil => trivial
  | cons s slots =>
    obtain ⟨chord, ticks⟩ := s
    obtain ⟨hchord, hchange, hrest⟩ := h
    refine ⟨hchord, ?_, hrest⟩
    obtain ⟨e, rfl⟩ := Option.ne_none_iff_exists'.1 hchord
    rw [← hchange, sameChord, sameChord, Chord.same_comm e, Chord.same_comm e,
      Chord.same_congr_left hsame]

/-- The rest of a run whose chord stays the same, with anything consistent behind it. -/
theorem changesAtOne_run_append {c : Chord} {run : List Chord} {slots : List (Option Chord × Int)}
    (hconstant : ∀ d ∈ run, c.same d = true) (h : ChangesAtOne (some c) 1 slots) :
    ChangesAtOne (some c) ((run.length + 1 : Nat) : Int)
      ((run.map some).zip (countdown run.length) ++ slots) := by
  induction run generalizing c with
  | nil => simpa using h
  | cons d run ih =>
    have hd := hconstant d List.mem_cons_self
    have hrun : ∀ e ∈ run, d.same e = true := by
      intro e he
      rw [← Chord.same_congr_left hd]
      exact hconstant e (List.mem_cons_of_mem _ he)
    rw [List.map_cons, List.length_cons, countdown_succ, List.zip_cons_cons, List.cons_append]
    refine ⟨nofun, ?_, ih hrun (h.congr hd)⟩
    rw [sameChord, Chord.same_comm, hd]
    simp
    omega

/-- The slots of runs pass the check of chords, behind a chord that the first run differs from. -/
theorem ConsistsOfRuns.changesAtOne {runs : List (List Chord)} {chords : List (Option Chord)}
    {counters : List Int} {last : Option Chord} (h : ConsistsOfRuns runs chords counters)
    (hlast : ∀ run ∈ runs.head?, ∀ d ∈ run, sameChord (some d) last = false) :
    ChangesAtOne last 1 (chords.zip counters) := by
  obtain ⟨hne, rfl, rfl, hconstant, hchanges⟩ := h
  induction runs generalizing last with
  | nil => trivial
  | cons run runs ih =>
    obtain ⟨c, run, rfl⟩ := List.exists_cons_of_ne_nil (hne run List.mem_cons_self)
    obtain ⟨hhead, htail⟩ := List.isChain_cons.1 hchanges
    have hrest : ChangesAtOne (some c) 1 ((runs.flatten.map some).zip
        (runs.flatMap fun run => countdown run.length)) := by
      refine ih ?_ (fun run hrun => hne run (List.mem_cons_of_mem _ hrun))
        (fun run hrun => hconstant run (List.mem_cons_of_mem _ hrun)) htail
      intro next hnext d hd
      rw [sameChord, Chord.same_comm]
      exact hhead next hnext c List.mem_cons_self d hd
    rw [List.flatten_cons, List.map_append, List.flatMap_cons, List.zip_append (by simp),
      List.map_cons, List.length_cons, countdown_succ, List.zip_cons_cons, List.cons_append]
    refine ⟨nofun, ?_, changesAtOne_run_append (fun d hd => ?_) hrest⟩
    · rw [hlast _ rfl c List.mem_cons_self]
      simp
    · exact hconstant _ List.mem_cons_self c List.mem_cons_self d (List.mem_cons_of_mem _ hd)

/-- Slots that pass the check behind a slot make up runs together with it. -/
theorem exists_runs {slots : List (Option Chord × Int)} {c : Chord} {n : Int} (hpos : 0 < n)
    (hcounts : CountsDown n (slots.map Prod.snd)) (hchanges : ChangesAtOne (some c) n slots) :
    ∃ runs, ConsistsOfRuns runs (some c :: slots.map Prod.fst) (n :: slots.map Prod.snd) := by
  induction slots generalizing c n with
  | nil =>
    obtain rfl : n = 1 := hcounts
    exact ⟨[[c]], ConsistsOfRuns.start ⟨nofun, rfl, rfl, nofun, .nil⟩ nofun⟩
  | cons s slots ih =>
    obtain ⟨chord, m⟩ := s
    obtain ⟨hm, hnext, hcounts⟩ := hcounts
    obtain ⟨hchord, hsame, hchanges⟩ := hchanges
    obtain ⟨d, rfl⟩ := Option.ne_none_iff_exists'.1 hchord
    obtain ⟨runs, hruns⟩ := ih hm hcounts hchanges
    obtain ⟨run, rest, rfl, rfl⟩ := hruns.exists_cons
    rw [sameChord, Chord.same_comm] at hsame
    by_cases hone : n = 1
    · subst hone
      have hother : c.same d = false := by simpa using hsame
      refine ⟨[c] :: (d :: run) :: rest, hruns.start fun run' hrun e he => ?_⟩
      cases hrun
      have := hruns.constant _ List.mem_cons_self d List.mem_cons_self e he
      rw [Chord.same_comm, ← Chord.same_congr_left this, Chord.same_comm]
      exact hother
    · obtain rfl : n = ((run.length + 2 : Nat) : Int) := by
        have := hnext hone
        omega
      exact ⟨(c :: d :: run) :: rest, hruns.extend (hsame.2 hone)⟩

/-! ## The check -/

/-- A timeline has no flaw exactly if its chords are those of runs and its sections are counted
down. -/
theorem flaw?_eq_none_iff (t : Timeline) :
    t.flaw? = none ↔
      (∃ runs, ConsistsOfRuns runs (t.slots.toList.map Slot.chord)
        (t.slots.toList.map Slot.chordTicks)) ∧
      ∃ sections : List Nat, (∀ n ∈ sections, 0 < n) ∧
        t.slots.toList.map Slot.sectionTicks = sections.flatMap countdown := by
  rw [flaw?, flawFrom?_eq_none_iff _ _ _ (by decide) (by decide), ← countsDown_one_iff]
  generalize t.slots.toList = slots
  constructor
  · rintro ⟨hcounts, hsections, hchanges⟩
    refine ⟨?_, hsections⟩
    cases slots with
    | nil => exact ⟨[], nofun, rfl, rfl, nofun, .nil⟩
    | cons s slots =>
      obtain ⟨hpos, -, hcounts⟩ := hcounts
      obtain ⟨hchord, -, hchanges⟩ := hchanges
      obtain ⟨c, hc⟩ := Option.ne_none_iff_exists'.1 hchord
      rw [hc] at hchanges
      have hcounts : CountsDown s.chordTicks
          ((slots.map fun s => (s.chord, s.chordTicks)).map Prod.snd) := by
        rw [List.map_map]
        exact hcounts
      obtain ⟨runs, hruns⟩ := exists_runs hpos hcounts hchanges
      rw [List.map_map, List.map_map, ← hc] at hruns
      exact ⟨runs, hruns⟩
  · rintro ⟨⟨runs, hruns⟩, hsections⟩
    have hcounts : CountsDown 1 (slots.map Slot.chordTicks) := by
      rw [hruns.counters_eq, ← List.flatMap_map List.length]
      refine countsDown_flatMap fun n hn => ?_
      obtain ⟨run, hrun, rfl⟩ := List.mem_map.1 hn
      exact List.length_pos_iff.2 (hruns.nonempty run hrun)
    refine ⟨hcounts, hsections, ?_⟩
    rw [← List.zip_map']
    exact hruns.changesAtOne fun _ _ _ _ => rfl

/-- The check passes when no flaw is found. -/
theorem check_eq_ok_iff (t : Timeline) : t.check = .ok () ↔ t.flaw? = none := by
  unfold check
  split
  · rename_i hflaw
    simp [hflaw]
  · rename_i hflaw
    simp [hflaw]

/-- Three columns pass the check exactly if they are equally long, the chords and their counters are
those of runs, and the counters of the sections are countdowns of positive lengths. -/
theorem check_ofColumns_eq_ok_iff (chords : List (Option Chord))
    (chordTicks sectionTicks : List Int) :
    ofColumns chords chordTicks sectionTicks >>= check = .ok () ↔
      (chords.length = chordTicks.length ∧ chordTicks.length = sectionTicks.length) ∧
      (∃ runs, ConsistsOfRuns runs chords chordTicks) ∧
      ∃ sections : List Nat, (∀ n ∈ sections, 0 < n) ∧
        sectionTicks = sections.flatMap countdown := by
  by_cases hlengths : chords.length = chordTicks.length ∧ chordTicks.length = sectionTicks.length
  · obtain ⟨t, ht, rfl, rfl, rfl⟩ := ofColumns_eq_ok hlengths.1 hlengths.2
    rw [ht, ← flaw?_eq_none_iff, and_iff_right ⟨hlengths.1, hlengths.2⟩]
    exact check_eq_ok_iff t
  · rw [ofColumns, if_neg hlengths]
    exact iff_of_false nofun fun h => hlengths h.1

/-- Another text does not end a run, and another octave does. -/
example :
    ofColumns [some ⟨0, .major, 0, ['C']⟩, some ⟨0, .major, 0, [' ', 'C']⟩,
      some ⟨0, .major, 1, ['C']⟩] [2, 1, 1] [1, 2, 1] >>= check = .ok () := by
  decide

end Timeline

end Songsmith
