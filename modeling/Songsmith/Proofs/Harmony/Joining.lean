import Songsmith.Proofs.Harmony.Runs

/-!
# Joining in place

Joined runs make up the columns of a timeline. The columns of the runs as they come can also be
rewritten in place: from a tick on, the counters are followed from run to run as long as the harmony
stays the same (`Columns.Reaches`), the ticks up to there get the chord of the first one and a
counter of their own, and the pass goes on behind them (`Columns.JoinsTo`).

What has been rewritten lies before every counter that is still followed. So whenever the pass goes
on, the columns are those of joined runs up to its tick and of the runs as they came from there on
(`Run.Joins.joinsTo`), and in the end they are those of `Run.merge`. The ticks of a joined run are
all those around its first one that have the same harmony (`Columns.block_around`), and a run with
its chord starts where it starts (`Run.Joins.exists_first`). `Run.merge_blockwise` puts this
together.
-/

namespace Songsmith

/-- The chord at every tick and how many ticks it still lasts. -/
structure Columns where
  chords : List (Option Chord)
  counters : List Int
deriving DecidableEq

namespace Columns

/-- The columns of runs. -/
def ofRuns (runs : List Run) : Columns :=
  ⟨runs.flatMap Run.chords, runs.flatMap fun r => countdown r.ticks⟩

/-- Gives all ticks from one up to another the same chord and counts them down. -/
def overwrite (c : Columns) (start stop : Nat) (first : Chord) : Columns where
  chords := c.chords.take start ++ List.replicate (stop - start) (some first) ++ c.chords.drop stop
  counters := c.counters.take start ++ countdown (stop - start) ++ c.counters.drop stop

/-- Following the counters from a tick on, as long as there is the same harmony, ends at `stop`. -/
inductive Reaches (c : Columns) (first : Chord) : (tick stop : Nat) → Prop
  | stop {tick : Nat} : (∀ d, c.chords[tick]? = some (some d) → d.sameHarmony first = false) →
      Reaches c first tick tick
  | next {tick n stop : Nat} {d : Chord} : c.chords[tick]? = some (some d) →
      d.sameHarmony first = true → c.counters[tick]? = some (n : Int) →
      Reaches c first (tick + n) stop → Reaches c first tick stop

/-- Joining in place from a tick on ends, and with these columns. A run that stays alone is not
rewritten. -/
inductive JoinsTo : (tick : Nat) → (before after : Columns) → Prop
  | done {tick : Nat} {c : Columns} : c.chords.length ≤ tick → JoinsTo tick c c
  | step {tick n stop : Nat} {c after : Columns} {first : Chord} :
      c.chords[tick]? = some (some first) → c.counters[tick]? = some (n : Int) →
      c.Reaches first (tick + n) stop →
      JoinsTo stop (if stop = tick + n then c else c.overwrite tick stop first) after →
      JoinsTo tick c after

/-- At both ticks there are chords of the same harmony. -/
def SameAt (c : Columns) (tick tick' : Nat) : Prop :=
  ∃ d d', c.chords[tick]? = some (some d) ∧ c.chords[tick']? = some (some d') ∧
    d.sameHarmony d' = true

/-- The ticks from `start` up to `stop` have the same harmony, and those next to them do not. -/
structure Block (c : Columns) (start stop : Nat) : Prop where
  lt : start < stop
  same : ∀ tick, start ≤ tick → tick < stop → c.SameAt start tick
  changes_start : ∀ tick, tick + 1 = start → ¬ c.SameAt tick start
  changes_stop : ¬ c.SameAt start stop

/-! ## One pass -/

/-- The counters lead to one end only. -/
theorem Reaches.unique {c : Columns} {first : Chord} {tick stop stop' : Nat}
    (h : c.Reaches first tick stop) (h' : c.Reaches first tick stop') : stop = stop' := by
  induction h with
  | stop hother =>
    cases h' with
    | stop => rfl
    | next hd hsame =>
      rw [hother _ hd] at hsame
      cases hsame
  | next hd hsame hn _ ih =>
    cases h' with
    | stop hother =>
      rw [hother _ hd] at hsame
      cases hsame
    | next _ _ hn' hrest =>
      obtain rfl := Int.ofNat_inj.1 (Option.some.inj (hn.symm.trans hn'))
      exact ih hrest

/-- A pass comes to one result only. -/
theorem JoinsTo.unique {tick : Nat} {c after after' : Columns} (h : JoinsTo tick c after)
    (h' : JoinsTo tick c after') : after = after' := by
  induction h with
  | done hle =>
    cases h' with
    | done => rfl
    | step hfirst => exact absurd (List.getElem?_eq_some_iff.1 hfirst).1 (Nat.not_lt.2 hle)
  | step hfirst hn hreaches _ ih =>
    cases h' with
    | done hle => exact absurd (List.getElem?_eq_some_iff.1 hfirst).1 (Nat.not_lt.2 hle)
    | step hfirst' hn' hreaches' hrest =>
      cases hfirst.symm.trans hfirst'
      obtain rfl := Int.ofNat_inj.1 (Option.some.inj (hn.symm.trans hn'))
      obtain rfl := hreaches.unique hreaches'
      exact ih hrest

section
variable {done rest : List Run} {r : Run}

/-- The columns of runs are as long as the runs are together. -/
theorem length_chords_ofRuns (runs : List Run) :
    (ofRuns runs).chords.length = Cycle.total Run.ticks runs :=
  Cycle.length_flatMap Run.length_chords runs

/-- At every tick of a run there is its chord. -/
theorem getElem?_chords_ofRuns {tick : Nat} (hlo : Cycle.total Run.ticks done ≤ tick)
    (hhi : tick < Cycle.total Run.ticks done + r.ticks) :
    (ofRuns (done ++ r :: rest)).chords[tick]? = some (some r.chord) := by
  rw [ofRuns, Cycle.getElem?_flatMap_around Run.length_chords hlo hhi, Run.chords,
    List.getElem?_replicate_of_lt (by omega)]

/-- Where a run starts, its counter is its length. -/
theorem getElem?_counters_ofRuns (hr : 0 < r.ticks) :
    (ofRuns (done ++ r :: rest)).counters[Cycle.total Run.ticks done]? = some (r.ticks : Int) := by
  rw [ofRuns, getElem?_counters Run.ticks (Nat.le_refl _) (by omega)]
  congr 1
  omega

/-- The counters of the first runs, all of the same harmony, are followed up to a run of another
one. -/
theorem reaches_ofRuns {first : Chord} (done : List Run) {block rest : List Run}
    (pos : ∀ s ∈ block ++ rest, 0 < s.ticks)
    (hblock : ∀ s ∈ block, s.chord.sameHarmony first = true)
    (hrest : ∀ s ∈ rest.head?, s.chord.sameHarmony first = false) :
    (ofRuns (done ++ (block ++ rest))).Reaches first (Cycle.total Run.ticks done)
      (Cycle.total Run.ticks (done ++ block)) := by
  induction block generalizing done with
  | nil =>
    rw [List.append_nil, List.nil_append]
    refine .stop fun d hd => ?_
    cases rest with
    | nil =>
      have hlt := (List.getElem?_eq_some_iff.1 hd).1
      rw [length_chords_ofRuns, List.append_nil] at hlt
      omega
    | cons s rest =>
      have hs := pos s (by simp)
      rw [getElem?_chords_ofRuns (Nat.le_refl _) (by omega)] at hd
      cases hd
      exact hrest s rfl
  | cons s block ih =>
    obtain ⟨hs, hblock⟩ := List.forall_mem_cons.1 hblock
    obtain ⟨hpos, pos⟩ := List.forall_mem_cons.1 pos
    refine .next (getElem?_chords_ofRuns (Nat.le_refl _) (by omega)) hs
      (getElem?_counters_ofRuns hpos) ?_
    have h := ih (done ++ [s]) pos hblock
    rw [Cycle.total_append, Cycle.total_cons] at h
    simpa using h

/-- What a column of runs says before some of them, and behind them. -/
theorem replace_flatMap {α : Type} {f : Run → List α} (hf : ∀ r, (f r).length = r.ticks)
    (done block rest : List Run) (middle : List α) :
    ((done ++ (block ++ rest)).flatMap f).take (Cycle.total Run.ticks done) ++ middle ++
      ((done ++ (block ++ rest)).flatMap f).drop (Cycle.total Run.ticks (done ++ block)) =
    done.flatMap f ++ (middle ++ rest.flatMap f) := by
  have hbefore : ((done ++ (block ++ rest)).flatMap f).take (Cycle.total Run.ticks done) =
      done.flatMap f := by
    rw [List.flatMap_append, List.take_left' (Cycle.length_flatMap hf done)]
  have hbehind : ((done ++ (block ++ rest)).flatMap f).drop
      (Cycle.total Run.ticks (done ++ block)) = rest.flatMap f := by
    rw [← List.append_assoc, List.flatMap_append, List.drop_left' (Cycle.length_flatMap hf _)]
  rw [hbefore, hbehind, List.append_assoc]

/-- Overwriting the ticks of some runs puts one run in their place. -/
theorem overwrite_ofRuns (first : Chord) (done block rest : List Run) :
    (ofRuns (done ++ (block ++ rest))).overwrite (Cycle.total Run.ticks done)
      (Cycle.total Run.ticks (done ++ block)) first =
    ofRuns (done ++ ⟨first, Cycle.total Run.ticks block⟩ :: rest) := by
  have hticks : Cycle.total Run.ticks (done ++ block) - Cycle.total Run.ticks done =
      Cycle.total Run.ticks block := by
    rw [Cycle.total_append, Nat.add_sub_cancel_left]
  rw [overwrite, hticks, ofRuns, replace_flatMap Run.length_chords,
    replace_flatMap fun _ => length_countdown _]
  simp only [ofRuns, List.flatMap_append, List.flatMap_cons, Run.chords]

/-- A step of the pass puts the joined run in the place of the first one and of those that have its
harmony, also if there are none. -/
theorem step_ofRuns (done : List Run) (r : Run) {block : List Run} (rest : List Run)
    (pos : ∀ s ∈ block, 0 < s.ticks) :
    (if Cycle.total Run.ticks (done ++ r :: block) = Cycle.total Run.ticks done + r.ticks then
      ofRuns (done ++ r :: (block ++ rest))
    else (ofRuns (done ++ r :: (block ++ rest))).overwrite (Cycle.total Run.ticks done)
      (Cycle.total Run.ticks (done ++ r :: block)) r.chord) =
    ofRuns (done ++ ⟨r.chord, Cycle.total Run.ticks (r :: block)⟩ :: rest) := by
  cases block with
  | nil => rw [if_pos (by rw [Cycle.total_append]; rfl)]; rfl
  | cons s block =>
    have hs := pos s List.mem_cons_self
    rw [if_neg, ← overwrite_ofRuns]
    · rfl
    · rw [Cycle.total_append, Cycle.total_cons, Cycle.total_cons]
      omega

end

end Columns

namespace Run

/-! ## Joined runs -/

/-- Runs are joined in order: the first one with all runs behind it that have its harmony, up to one
of another harmony. -/
inductive Joins : List Run → List Run → Prop
  | nil : Joins [] []
  | cons {r : Run} {block rest merged : List Run} :
      (∀ s ∈ block, s.chord.sameHarmony r.chord = true) →
      (∀ s ∈ rest.head?, s.chord.sameHarmony r.chord = false) → Joins rest merged →
      Joins (r :: (block ++ rest)) (⟨r.chord, Cycle.total Run.ticks (r :: block)⟩ :: merged)

/-- A run with another harmony behind it stays as it is. -/
theorem Joins.single {r : Run} {rest merged : List Run}
    (hrest : ∀ s ∈ rest.head?, s.chord.sameHarmony r.chord = false) (h : Joins rest merged) :
    Joins (r :: rest) (r :: merged) :=
  @Joins.cons r [] rest merged (List.forall_mem_nil _) hrest h

/-- Joining each run with what has been joined behind it is joining in order. -/
theorem joins_merge (runs : List Run) : Joins runs (merge runs) := by
  induction runs with
  | nil => exact .nil
  | cons r runs ih =>
    rw [merge, List.foldr_cons, ← merge]
    generalize merge runs = joined at ih
    cases ih with
    | nil => exact .single (by simp) .nil
    | @cons s block rest merged hblock hrest htail =>
      rw [prepend]
      split
      · next h =>
        refine @Joins.cons r (s :: block) rest merged (List.forall_mem_cons.2 ⟨h, fun q hq => ?_⟩)
          (fun q hq => ?_) htail
        · exact Chord.sameHarmony_trans (hblock q hq) h
        · rw [← hrest q hq]
          exact Chord.sameHarmony_congr (Chord.sameHarmony_refl _) (Chord.sameHarmony_comm _ _ ▸ h)
      · next h =>
        refine .single (fun q hq => ?_) (.cons hblock hrest htail)
        cases hq
        exact Bool.eq_false_iff.2 h

namespace Joins

variable {runs merged : List Run}

/-- Where a joined run starts, there starts a run with its chord. -/
theorem exists_first {pre post : List Run} {m : Run} (h : Joins runs merged)
    (hsplit : merged = pre ++ m :: post) :
    ∃ pre' r post', runs = pre' ++ r :: post' ∧ r.chord = m.chord ∧
      Cycle.total Run.ticks pre' = Cycle.total Run.ticks pre := by
  induction h generalizing pre with
  | nil => cases pre <;> cases hsplit
  | @cons r block rest merged _ _ _ ih =>
    cases pre with
    | nil =>
      cases hsplit
      exact ⟨[], r, _, rfl, rfl, rfl⟩
    | cons q pre =>
      cases hsplit
      obtain ⟨pre', s, post', rfl, hchord, htotal⟩ := ih rfl
      refine ⟨r :: (block ++ pre'), s, post', by simp, hchord, ?_⟩
      simp only [Cycle.total_cons, Cycle.total_append, htotal, Nat.add_assoc]

/-- The pass goes on behind the runs that are joined already, and joins the others as they came. -/
theorem joinsTo (h : Joins runs merged) (done : List Run) (pos : ∀ r ∈ runs, 0 < r.ticks) :
    Columns.JoinsTo (Cycle.total Run.ticks done) (.ofRuns (done ++ runs))
      (.ofRuns (done ++ merged)) := by
  induction h generalizing done with
  | nil => exact .done (Nat.le_of_eq (by rw [Columns.length_chords_ofRuns, List.append_nil]))
  | @cons r block rest merged hblock hrest _ ih =>
    obtain ⟨hr, pos⟩ := List.forall_mem_cons.1 pos
    -- The joined run is one more that is done, and the pass goes on behind it.
    have hreaches := Columns.reaches_ofRuns (done ++ [r]) pos hblock hrest
    have hrewritten := Columns.step_ofRuns done r rest
      fun s hs => pos s (List.mem_append_left _ hs)
    have hnext := ih (done ++ [⟨r.chord, Cycle.total Run.ticks (r :: block)⟩])
      fun s hs => pos s (List.mem_append_right _ hs)
    simp only [List.append_assoc, List.singleton_append, Cycle.total_append, Cycle.total_cons,
      Cycle.total_nil, Nat.add_zero, ← Nat.add_assoc] at hreaches hrewritten hnext
    rw [← hrewritten] at hnext
    exact .step (Columns.getElem?_chords_ofRuns (Nat.le_refl _) (by omega))
      (Columns.getElem?_counters_ofRuns hr) hreaches hnext

end Joins

/-- On the columns of runs, the pass ends with the columns of the joined runs. -/
theorem joinsTo_iff {runs : List Run} (pos : ∀ r ∈ runs, 0 < r.ticks) (c : Columns) :
    (Columns.ofRuns runs).JoinsTo 0 c ↔ c = .ofRuns (merge runs) := by
  have hjoins : (Columns.ofRuns runs).JoinsTo 0 (.ofRuns (merge runs)) :=
    (joins_merge runs).joinsTo [] pos
  exact ⟨fun h => h.unique hjoins, fun h => h ▸ hjoins⟩

end Run

namespace Columns

/-! ## Blocks -/

section
variable {c d : Columns} {start stop start' stop' tick : Nat}

/-- Two ticks of the same harmony as a third one have the same harmony. -/
theorem SameAt.trans_left {tick₁ tick₂ tick₃ : Nat} (h : c.SameAt tick₁ tick₂)
    (h' : c.SameAt tick₁ tick₃) : c.SameAt tick₂ tick₃ := by
  obtain ⟨d₁, d₂, h₁, h₂, hsame⟩ := h
  obtain ⟨d₁', d₃, h₁', h₃, hsame'⟩ := h'
  cases h₁.symm.trans h₁'
  exact ⟨d₂, d₃, h₂, h₃, Chord.sameHarmony_trans (Chord.sameHarmony_comm d₁ d₂ ▸ hsame) hsame'⟩

/-- Columns that are equal up to octave have the same harmony at the same ticks. -/
theorem SameAt.of_sameHarmonies (h : Run.SameHarmonies c.chords d.chords) {tick' : Nat}
    (hsame : c.SameAt tick tick') : d.SameAt tick tick' := by
  obtain ⟨e, e', he, he', hsame⟩ := hsame
  obtain ⟨f, hf, hef⟩ := h.exists_getElem? he
  obtain ⟨f', hf', hef'⟩ := h.exists_getElem? he'
  exact ⟨f, f', hf, hf', Chord.sameHarmony_congr hef hef' ▸ hsame⟩

/-- Columns of the same harmonies have the same blocks. -/
theorem Block.of_sameHarmonies (h : Run.SameHarmonies c.chords d.chords)
    (hblock : c.Block start stop) : d.Block start stop where
  lt := hblock.lt
  same tick hlo hhi := (hblock.same tick hlo hhi).of_sameHarmonies h
  changes_start tick htick hsame :=
    hblock.changes_start tick htick (hsame.of_sameHarmonies h.symm)
  changes_stop hsame := hblock.changes_stop (hsame.of_sameHarmonies h.symm)

/-- A block cannot start inside of another one. -/
theorem Block.start_le (h : c.Block start stop) (h' : c.Block start' stop') (hlt : start' < stop) :
    start' ≤ start := by
  by_contra hstart
  obtain ⟨tick, rfl⟩ := Nat.exists_eq_add_one_of_ne_zero (n := start') (by omega)
  exact h'.changes_start tick rfl
    ((h.same tick (by omega) (by omega)).trans_left (h.same (tick + 1) (by omega) hlt))

/-- A tick is in one block only. -/
theorem Block.unique (h : c.Block start stop) (h' : c.Block start' stop') (hlo : start ≤ tick)
    (hhi : tick < stop) (hlo' : start' ≤ tick) (hhi' : tick < stop') :
    start = start' ∧ stop = stop' := by
  obtain rfl := Nat.le_antisymm (h'.start_le h (by omega)) (h.start_le h' (by omega))
  have hle := h.lt
  refine ⟨rfl, ?_⟩
  rcases Nat.lt_trichotomy stop stop' with hlt | heq | hlt
  · exact absurd (h'.same stop (by omega) hlt) h.changes_stop
  · exact heq
  · exact absurd (h.same stop' (by omega) hlt) h'.changes_stop

end

section
variable {pre post : List Run} {r s : Run}

/-- Neighbours of different harmonies have them at all their ticks. -/
theorem not_sameAt_ofRuns (hne : s.chord.sameHarmony r.chord = false) {tick tick' : Nat}
    (hlo : Cycle.total Run.ticks pre ≤ tick) (hhi : tick < Cycle.total Run.ticks pre + r.ticks)
    (hlo' : Cycle.total Run.ticks pre + r.ticks ≤ tick')
    (hhi' : tick' < Cycle.total Run.ticks pre + r.ticks + s.ticks) :
    ¬ (ofRuns (pre ++ r :: s :: post)).SameAt tick tick' := by
  rintro ⟨d, d', hd, hd', hsame⟩
  rw [getElem?_chords_ofRuns hlo hhi] at hd
  rw [List.append_cons, getElem?_chords_ofRuns (by simpa [Cycle.total_append] using hlo')
    (by simpa [Cycle.total_append] using hhi')] at hd'
  cases hd
  cases hd'
  rw [Chord.sameHarmony_comm, hne] at hsame
  cases hsame

/-- Where no two neighbours have equal harmony, every run is a block. -/
theorem block_around (pos : ∀ q ∈ pre ++ r :: post, 0 < q.ticks)
    (hchain : (pre ++ r :: post).IsChain fun r s => s.chord.sameHarmony r.chord = false) :
    (ofRuns (pre ++ r :: post)).Block (Cycle.total Run.ticks pre)
      (Cycle.total Run.ticks pre + r.ticks) where
  lt := by
    have := pos r (by simp)
    omega
  same tick hlo hhi :=
    ⟨r.chord, r.chord, getElem?_chords_ofRuns (Nat.le_refl _) (by omega),
      getElem?_chords_ofRuns hlo hhi, Chord.sameHarmony_refl _⟩
  changes_start tick htick := by
    rcases List.eq_nil_or_concat pre with rfl | ⟨pre, q, rfl⟩
    · cases htick
    · have hq := pos q (by simp)
      have hr := pos r (by simp)
      simp only [List.concat_eq_append, List.append_assoc, List.singleton_append] at hchain ⊢
      simp only [List.concat_eq_append, Cycle.total_append, Cycle.total_cons, Cycle.total_nil,
        Nat.add_zero] at htick ⊢
      exact not_sameAt_ofRuns (List.isChain_append_cons_cons.1 hchain).2.1 (by omega) (by omega)
        (Nat.le_refl _) (by omega)
  changes_stop := by
    have hr := pos r (by simp)
    cases post with
    | nil =>
      rintro ⟨-, d, -, hd, -⟩
      have hlt := (List.getElem?_eq_some_iff.1 hd).1
      rw [length_chords_ofRuns, Cycle.total_append, Cycle.total_cons, Cycle.total_nil] at hlt
      omega
    | cons s post =>
      have hs := pos s (by simp)
      exact not_sameAt_ofRuns (List.isChain_append_cons_cons.1 hchain).2.1 (Nat.le_refl _)
        (by omega) (Nat.le_refl _) (by omega)

/-- The blocks of runs are the ticks of the joined runs. -/
theorem Block.exists_merged {runs : List Run} {start stop : Nat}
    (h : (ofRuns runs).Block start stop) (pos : ∀ r ∈ runs, 0 < r.ticks) :
    ∃ pre m post, Run.merge runs = pre ++ m :: post ∧ Cycle.total Run.ticks pre = start ∧
      Cycle.total Run.ticks pre + m.ticks = stop := by
  obtain ⟨d, -, hd, -⟩ := h.same start (Nat.le_refl _) h.lt
  have hstart : start < Cycle.total Run.ticks (Run.merge runs) := by
    rw [Run.total_merge, ← length_chords_ofRuns]
    exact (List.getElem?_eq_some_iff.1 hd).1
  obtain ⟨pre, m, post, hsplit, hlo, hhi⟩ := Cycle.exists_around hstart
  have hpos := Run.pos_of_mem_merge pos
  have hchain := Run.isChain_merge runs
  have hsame := Run.sameHarmony_merge runs
  rw [hsplit] at hpos hchain hsame
  have hmerged : (ofRuns runs).Block _ _ := (block_around hpos hchain).of_sameHarmonies hsame
  exact ⟨pre, m, post, hsplit, hmerged.unique h hlo hhi (Nat.le_refl _) h.lt⟩

end

end Columns

/-- Joining runs on their columns, in place and from the first tick on, ends with the columns of the
joined runs. They have the same lengths and harmonies. In every block of ticks that have the same
harmony, all of them have the chord of the first one, octave included, and are counted down to the
end of the block. Joining again changes nothing. -/
theorem Run.merge_blockwise {runs : List Run} (pos : ∀ r ∈ runs, 0 < r.ticks) :
    let before := Columns.ofRuns runs
    let after := Columns.ofRuns (merge runs)
    (∀ c, before.JoinsTo 0 c ↔ c = after) ∧
    after.chords.length = before.chords.length ∧
    after.counters.length = before.counters.length ∧
    SameHarmonies after.chords before.chords ∧
    (∀ start stop, before.Block start stop → ∀ tick, start ≤ tick → tick < stop →
      after.chords[tick]? = before.chords[start]? ∧
      after.counters[tick]? = some ((stop : Int) - tick)) ∧
    merge (merge runs) = merge runs ∧
    (∀ c, after.JoinsTo 0 c ↔ c = after) := by
  intro before after
  have hself : merge (merge runs) = merge runs := merge_eq_self (isChain_merge runs)
  have hagain := joinsTo_iff (pos_of_mem_merge pos)
  rw [hself] at hagain
  refine ⟨joinsTo_iff pos, (sameHarmony_merge runs).length_eq, ?_, sameHarmony_merge runs, ?_,
    hself, hagain⟩
  · exact ((length_counters ticks _).trans (total_merge runs)).trans (length_counters ticks _).symm
  · intro start stop hblock tick hlo hhi
    obtain ⟨pre, m, post, hsplit, rfl, rfl⟩ := hblock.exists_merged pos
    obtain ⟨pre', r, post', hruns, hchord, hstart⟩ := (joins_merge runs).exists_first hsplit
    have hr := pos r (by simp [hruns])
    have hfirst : before.chords[Cycle.total ticks pre]? = some (some r.chord) := by
      rw [← hstart]
      simp only [before, hruns]
      exact Columns.getElem?_chords_ofRuns (Nat.le_refl _) (by omega)
    rw [hfirst, hchord]
    simp only [after, hsplit]
    exact ⟨Columns.getElem?_chords_ofRuns hlo hhi, getElem?_counters ticks hlo hhi⟩

/-- Three voicings of one harmony, and another one behind them. The first two runs are joined with
the third one, and all of their ticks are voiced as the first. -/
theorem Run.merge_blockwise_voicings :
    let c (octave : Int) : Chord := ⟨0, .major, octave, []⟩
    let d : Chord := ⟨9, .minor, 0, []⟩
    let runs : List Run := [⟨c 1, 1⟩, ⟨c 0, 2⟩, ⟨c 2, 1⟩, ⟨d, 2⟩]
    let after : Columns := ⟨[c 1, c 1, c 1, c 1, d, d], [4, 3, 2, 1, 2, 1]⟩
    (∀ r ∈ runs, 0 < r.ticks) ∧
    Columns.ofRuns runs = ⟨[c 1, c 0, c 0, c 2, d, d], [1, 2, 1, 1, 2, 1]⟩ ∧
    (Columns.ofRuns runs).Block 0 4 ∧
    (Columns.ofRuns runs).JoinsTo 0 after ∧
    (∀ tick : Nat, tick < 4 → after.chords[tick]? = some (c 1) ∧
      after.counters[tick]? = some (4 - (tick : Int))) ∧
    after.JoinsTo 0 after := by
  intro c d runs after
  have pos : ∀ r ∈ runs, 0 < r.ticks := by decide
  have hblock : (Columns.ofRuns runs).Block 0 4 := by
    refine ⟨by decide, fun tick _ hhi => ?_, nofun, ?_⟩
    · obtain rfl | rfl | rfl | rfl : tick = 0 ∨ tick = 1 ∨ tick = 2 ∨ tick = 3 := by omega
      all_goals exact ⟨_, _, rfl, rfl, by decide⟩
    · rintro ⟨c', d', hc, hd, hsame⟩
      cases hc
      cases hd
      revert hsame
      decide
  obtain ⟨hpass, -, -, -, hall, -, hagain⟩ := merge_blockwise pos
  have hafter : Columns.ofRuns (merge runs) = after := by decide
  rw [hafter] at hpass hall hagain
  exact ⟨pos, by decide, hblock, (hpass _).2 rfl,
    fun tick h => hall 0 4 hblock tick (Nat.zero_le _) h, (hagain _).2 rfl⟩

end Songsmith
