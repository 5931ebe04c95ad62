import Songsmith.Proofs.Harmony.Rendering
import Songsmith.Proofs.Harmony.Walks
import Songsmith.Proofs.Number.Integer
import Mathlib.Data.List.SplitBy

/-!
# Texts of sections

The text of a section is what a walk over the runs of chords writes from a tick to the end of the
section around it: a name and a length for every run, cut off at both ends. Over a rendered timeline
that is the run-length encoding of the names at those ticks
(`Timeline.NamedRuns.sectionText?_eq`), which can be expanded into the names again
(`expandedNames_writeNames`). Names tell harmonies apart (`Chord.Named.name_eq_iff`), so that
sections have the same text exactly if they last equally long and have equal harmonies at every
offset (`Timeline.SameSection`), and the texts count the sections that differ.
`HarmonyEngine.sections_faithful` puts this together.
-/

namespace Songsmith

/-! ## Names -/

namespace Chord.Named

variable {c d : Chord}

/-- Names tell harmonies apart, and nothing else. -/
theorem name_eq_iff (hc : c.Named) (hd : d.Named) : c.name = d.name ↔ c.sameHarmony d = true := by
  rw [sameHarmony_iff]
  constructor
  · intro h
    have hparts : some (c.rootClass, c.quality) = some (d.rootClass, d.quality) := by
      rw [← hc.spells.parts, ← hd.spells.parts, h]
    exact Prod.ext_iff.1 (Option.some.inj hparts)
  · rintro ⟨hclass, hquality⟩
    rw [name, name, hclass, hquality]

/-- Names are free of the signs that stand between the pieces of a section text. -/
theorem not_mem_name (hc : c.Named) : ',' ∉ c.name ∧ '/' ∉ c.name := by
  obtain ⟨n, htext, -⟩ := hc.exists_name
  rw [← htext]
  exact ⟨ChordName.not_mem_text (by decide) (by decide),
    ChordName.not_mem_text (by decide) (by decide)⟩

end Chord.Named

/-! ## Run-length encoding -/

/-- The runs of equal names next to each other, with their lengths. -/
def runLengths (names : List Text) : List (Text × Nat) :=
  (names.splitBy (· == ·)).map fun run => (run.headD [], run.length)

/-- A run in front of other names is encoded in front of them. -/
theorem runLengths_replicate_append {name : Text} {n : Nat} {names : List Text} (hn : 0 < n)
    (hnames : ∀ other ∈ names.head?, other ≠ name) :
    runLengths (List.replicate n name ++ names) = (name, n) :: runLengths names := by
  obtain ⟨m, rfl⟩ := Nat.exists_eq_add_of_lt hn
  have hrun : (List.replicate (0 + m + 1) name).splitBy (· == ·) =
      [List.replicate (0 + m + 1) name] :=
    List.splitBy_of_isChain (by simp) (List.isChain_replicate_of_rel _ (by simp))
  rw [runLengths, List.splitBy_append, hrun]
  · simp [runLengths, List.replicate_succ]
  · intro x hx y hy
    have hx := List.eq_of_mem_replicate (List.mem_of_getLast? hx)
    rw [hx, beq_eq_false_iff_ne]
    exact (hnames y hy).symm

/-- Each name as often as its run is long gives the names again. -/
theorem flatMap_runLengths (names : List Text) :
    ((runLengths names).flatMap fun (name, n) => List.replicate n name) = names := by
  have hrun : ∀ run ∈ names.splitBy (· == ·),
      List.replicate run.length (run.headD []) = run := by
    intro run hmem
    have hchain := List.isChain_of_mem_splitBy hmem
    simp only [beq_iff_eq, List.isChain_eq_iff_eq_replicate] at hchain
    cases run with
    | nil => rfl
    | cons name run => exact (hchain name rfl).symm
  rw [runLengths, List.flatMap_map, List.flatMap_def, List.map_congr_left hrun, List.map_id',
    List.flatten_splitBy]

/-- Only the names themselves are encoded. -/
theorem mem_of_mem_runLengths {names : List Text} {piece : Text × Nat}
    (h : piece ∈ runLengths names) : piece.1 ∈ names := by
  obtain ⟨run, hrun, rfl⟩ := List.mem_map.1 h
  have hne := List.ne_nil_of_mem_splitBy hrun
  rw [← List.flatten_splitBy (· == ·) names]
  refine List.mem_flatten.2 ⟨run, hrun, ?_⟩
  cases run with
  | nil => exact absurd rfl hne
  | cons name run => exact List.mem_cons_self

/-- A name and a length. -/
def writePiece (piece : Text × Nat) : Text := piece.1 ++ '/' :: Integer.digits piece.2

/-- The run-length encoding of names, written down. -/
def writeNames (names : List Text) : Text := Text.commaJoin ((runLengths names).map writePiece)

/-- The name in front of a slash, as often as the number behind it says. -/
def pieceNames (piece : Text) : List Text :=
  match piece.splitOn '/' with
  | [name, digits] => List.replicate (Numeral.value digits) name
  | _ => []

/-- The names of a text of names and lengths, each as often as its length says. -/
def expandedNames (text : Text) : List Text := (text.splitOn ',').flatMap pieceNames

/-- A piece is expanded to its name, as many times as it says. -/
theorem pieceNames_writePiece {name : Text} (h : '/' ∉ name) (n : Nat) :
    pieceNames (writePiece (name, n)) = List.replicate n name := by
  have hdigits : '/' ∉ Integer.digits n := fun hmem =>
    absurd (Integer.isDigit_of_mem_digits_natCast hmem) (by decide)
  rw [pieceNames, writePiece, Text.splitOn_pair h hdigits]
  simp only
  rw [Integer.digits_natCast, Numeral.value_toDigits]

/-- Names without commas and slashes are expanded from what is written of them. -/
theorem expandedNames_writeNames {names : List Text} (hne : names ≠ [])
    (hnames : ∀ name ∈ names, ',' ∉ name ∧ '/' ∉ name) :
    expandedNames (writeNames names) = names := by
  have hpiece : ∀ piece ∈ runLengths names, ',' ∉ writePiece piece := by
    intro piece hpiece hmem
    rcases List.mem_append.1 hmem with hmem | hmem
    · exact (hnames _ (mem_of_mem_runLengths hpiece)).1 hmem
    · rcases List.mem_cons.1 hmem with hmem | hmem
      · cases hmem
      · exact absurd (Integer.isDigit_of_mem_digits_natCast hmem) (by decide)
  have hruns : runLengths names ≠ [] := fun hnil =>
    hne (List.splitBy_eq_nil.1 (List.map_eq_nil_iff.1 hnil))
  rw [expandedNames, writeNames, Text.commaJoin,
    List.splitOn_intercalate _ (List.forall_mem_map.2 hpiece) (by simpa using hruns),
    List.flatMap_map]
  conv_rhs => rw [← flatMap_runLengths names]
  refine List.flatMap_congr fun piece hpiece => ?_
  exact pieceNames_writePiece (hnames _ (mem_of_mem_runLengths hpiece)).2 _

namespace Timeline

/-! ## What a section holds -/

/-- The names of the chords at some ticks, from one on. -/
def names (t : Timeline) (tick count : Nat) : List Text :=
  (List.range count).map fun i => nameOf (t.chord? (tick + i : Nat))

/-- Two sections, each from a tick on, last equally long and have equal harmonies at every offset,
whatever the octaves. -/
def SameSection (t : Timeline) (a b : Int) : Prop :=
  t.sectionTicks a = t.sectionTicks b ∧ ∀ i : Nat, i < t.sectionTicks a →
    ∃ c d, t.chord? (a + i) = some c ∧ t.chord? (b + i) = some d ∧ c.sameHarmony d = true

/-- The chord at a tick is of another harmony than the given one. -/
def OtherHarmony (t : Timeline) (c : Chord) (tick : Nat) : Prop :=
  ∃ d, t.chord? tick = some d ∧ d.sameHarmony c = false

/-- At every tick there is a chord that has a name, and the counter says how far it is to the first
one of another harmony. -/
structure NamedRuns (t : Timeline) : Prop where
  run : ∀ tick < t.ticks, ∃ (c : Chord) (stop : Nat), t.chord? tick = some c ∧ c.Named ∧
    t.chordTicks tick = (stop : Int) - tick ∧ FirstAfter (t.OtherHarmony c) t.ticks tick stop

section
variable {t : Timeline}

/-- The chord at a tick is the entry of the column of chords, if there is one. -/
theorem chord?_eq_some_iff {tick : Nat} {c : Chord} :
    t.chord? tick = some c ↔ (t.slots.toList.map Slot.chord)[tick]? = some (some c) := by
  rw [chord?, slot?_natCast, List.getElem?_map]
  cases t.slots.toList[tick]? <;> simp

/-- Where there is a chord, there is a slot that holds it, with its counter. -/
theorem exists_slotAround? {tick : Nat} {c : Chord} (h : t.chord? tick = some c) :
    ∃ s, t.slotAround? tick = some s ∧ s.chord = some c ∧ s.chordTicks = t.chordTicks tick := by
  obtain ⟨s, hs, hc⟩ := Option.bind_eq_some_iff.1 h
  refine ⟨s, ?_, hc, ?_⟩
  · rw [slotAround?, if_neg (by omega), hs]
  · rw [chordTicks, hs]
    rfl

/-- The runs of a rendering have names, and their counters say where the harmony changes. -/
theorem namedRuns_of_columns {settings : Stamping.Settings} {first : ChordName} {ticks : Nat}
    {runs : List Run} (h : Stamping.RenderedRuns settings first ticks runs)
    (hchords : t.slots.toList.map Slot.chord = runs.flatMap Run.chords)
    (hcounters : t.slots.toList.map Slot.chordTicks = runs.flatMap fun r => countdown r.ticks) :
    t.NamedRuns where
  run := by
    intro tick htick
    rw [ticks_eq_total hcounters] at htick ⊢
    obtain ⟨c, stop, hc, hstop, hfirst⟩ := Run.exists_firstAfter runs h.pos h.changes htick
    obtain ⟨r, hr, hmem⟩ := List.mem_flatMap.1 (List.mem_of_getElem? hc)
    obtain ⟨-, hrc⟩ := List.mem_replicate.1 hmem
    obtain rfl := Option.some.inj hrc
    simp only [← hchords, ← chord?_eq_some_iff] at hc hfirst
    exact ⟨r.chord, stop, hc, h.named hr, chordTicks_eq hcounters hstop, hfirst⟩

/-- The names over a stretch of ticks are those over its parts. -/
theorem names_add (tick m n : Nat) :
    t.names tick (m + n) = t.names tick m ++ t.names (tick + m) n := by
  simp [names, List.range_add, Nat.add_assoc]

namespace NamedRuns

/-- Every tick of the timeline has a chord that can be named. -/
theorem exists_chord (h : t.NamedRuns) {tick : Nat} (htick : tick < t.ticks) :
    ∃ c, t.chord? tick = some c ∧ c.Named := by
  obtain ⟨c, _, hc, hnamed, -⟩ := h.run tick htick
  exact ⟨c, hc, hnamed⟩

section
variable {c : Chord} {tick stop : Nat}

/-- Until the harmony changes, the names are that of the chord. -/
theorem names_eq_replicate (h : t.NamedRuns) (hc : t.chord? tick = some c) (hnamed : c.Named)
    (hfirst : FirstAfter (t.OtherHarmony c) t.ticks tick stop) {n : Nat} (hn : tick + n ≤ stop) :
    t.names tick n = List.replicate n c.name := by
  have hle := hfirst.le
  refine List.eq_replicate_iff.2 ⟨by simp [names], ?_⟩
  intro name hname
  obtain ⟨i, hi, rfl⟩ := List.mem_map.1 hname
  rw [List.mem_range] at hi
  obtain ⟨d, hd, hnamed'⟩ := h.exists_chord (show tick + i < t.ticks by omega)
  rw [hd]
  refine (hnamed'.name_eq_iff hnamed).2 ?_
  rcases Nat.eq_zero_or_pos i with rfl | hi'
  · rw [Nat.add_zero, hc] at hd
    cases hd
    exact Chord.sameHarmony_refl c
  · rw [← Bool.not_eq_false]
    exact fun hne => hfirst.not_between (tick + i) (by omega) (by omega) ⟨d, hd, hne⟩

/-- Where the harmony changes, there is another name. -/
theorem ne_of_mem_head? (h : t.NamedRuns) (hnamed : c.Named)
    (hfirst : FirstAfter (t.OtherHarmony c) t.ticks tick stop) {n : Nat}
    (hn : n ≤ t.ticks - stop) : ∀ other ∈ (t.names stop n).head?, other ≠ c.name := by
  intro other hother
  cases n with
  | zero => cases hother
  | succ n =>
    obtain ⟨d, hd, hne⟩ := hfirst.happens_stop (by omega)
    obtain ⟨d', hd', hnamed'⟩ := h.exists_chord (show stop < t.ticks by omega)
    obtain rfl := Option.some.inj (hd.symm.trans hd')
    rw [names, List.head?_map, List.head?_range, if_neg n.succ_ne_zero, Option.map_some,
      Nat.add_zero, hd] at hother
    obtain rfl := Option.some.inj hother
    rw [nameOf, ne_eq, hnamed'.name_eq_iff hnamed, hne]
    exact Bool.false_ne_true

/-- Up to a limit, the names are encoded as one piece until the harmony changes, and those behind
that. -/
theorem runLengths_names (h : t.NamedRuns) (hc : t.chord? tick = some c) (hnamed : c.Named)
    (hfirst : FirstAfter (t.OtherHarmony c) t.ticks tick stop) {limit : Nat}
    (hlimit : limit ≤ t.ticks) (htick : tick < limit) :
    runLengths (t.names tick (limit - tick)) =
      (c.name, min limit stop - tick) :: runLengths (t.names stop (limit - stop)) := by
  have hlt := hfirst.lt
  have hsplit : t.names tick (limit - tick) =
      List.replicate (min limit stop - tick) c.name ++ t.names stop (limit - stop) := by
    rw [← h.names_eq_replicate hc hnamed hfirst (by omega)]
    rcases Nat.le_total stop limit with hstop | hstop
    · -- the run ends before the limit
      have hlength : limit - tick = (stop - tick) + (limit - stop) := by omega
      rw [Nat.min_eq_right hstop, hlength, names_add, Nat.add_sub_cancel' (by omega)]
    · -- the limit cuts the run off
      rw [Nat.min_eq_left hstop, Nat.sub_eq_zero_of_le hstop]
      exact (List.append_nil _).symm
  rw [hsplit, runLengths_replicate_append (by omega) (h.ne_of_mem_head? hnamed hfirst (by omega))]

end

/-- A walk over the runs from a tick to a limit writes the names there. -/
theorem exists_walkWithin (h : t.NamedRuns) {limit tick fuel : Nat}
    (hlimit : limit ≤ t.ticks) (hfuel : limit - tick < fuel) (visited : List (Int × Slot)) :
    ∃ met, t.walkWithin Slot.chordTicks limit fuel tick visited = .ok (visited.reverse ++ met) ∧
      (met.map fun (position, s) => runText s.chord (min (limit - position) s.chordTicks)) =
        (runLengths (t.names tick (limit - tick))).map writePiece := by
  induction fuel generalizing tick visited with
  | zero => cases hfuel
  | succ fuel ih =>
    rw [walkWithin]
    rcases Nat.lt_or_ge tick limit with htick | htick
    · obtain ⟨c, stop, hc, hnamed, hcounter, hfirst⟩ := h.run tick (by omega)
      have hlt := hfirst.lt
      obtain ⟨s, hs, hsc, hscounter⟩ := exists_slotAround? hc
      have hstep : (tick : Int) + s.chordTicks = (stop : Nat) := by omega
      have hpiece : runText s.chord (min ((limit : Int) - tick) s.chordTicks) =
          writePiece (c.name, min limit stop - tick) := by
        have hlength : min ((limit : Int) - tick) s.chordTicks = (min limit stop - tick : Nat) := by
          omega
        rw [hsc, hlength]
        rfl
      have hfuel' : limit - stop < fuel := by omega
      obtain ⟨met, hmet, hall⟩ := ih hfuel' (((tick : Nat), s) :: visited)
      refine ⟨((tick : Nat), s) :: met, ?_, ?_⟩
      · rw [if_pos (by omega), hs]
        simp only [hstep, hmet, List.reverse_cons, List.append_assoc, List.singleton_append]
      · rw [h.runLengths_names hc hnamed hfirst hlimit htick, List.map_cons, List.map_cons, hall]
        exact congrArg (· :: _) hpiece
    · refine ⟨[], ?_, ?_⟩
      · rw [if_neg (by omega), List.append_nil]
      · rw [Nat.sub_eq_zero_of_le htick]
        rfl

/-- The text of a section encodes the names to its end. -/
theorem sectionText?_eq (h : t.NamedRuns) {tick n : Nat} (hn : t.sectionTicks tick = n)
    (hpos : 0 < n) (hle : tick + n ≤ t.ticks) :
    t.sectionText? tick = .ok (some (writeNames (t.names tick n))) := by
  obtain ⟨met, hmet, hall⟩ := h.exists_walkWithin hle
    (show tick + n - tick < 2 * t.ticks + 1 by omega) []
  obtain ⟨c, hc, -⟩ := h.exists_chord (show tick < t.ticks by omega)
  obtain ⟨s, hs, -⟩ := Option.bind_eq_some_iff.1 hc
  have hsection : s.sectionTicks = n := by
    rw [sectionTicks, hs] at hn
    exact hn
  rw [Nat.add_sub_cancel_left] at hall
  rw [sectionText?, hs]
  simp only [hsection, walk, ← Int.natCast_add, hmet, Except.map, List.reverse_nil, List.nil_append,
    hall]
  rfl

/-- The names of a section are expanded from what is written of them. -/
theorem expandedNames_eq (h : t.NamedRuns) {tick n : Nat} (hpos : 0 < n)
    (hle : tick + n ≤ t.ticks) :
    expandedNames (writeNames (t.names tick n)) = t.names tick n := by
  refine expandedNames_writeNames ?_ fun name hname => ?_
  · simp [names, hpos.ne']
  · obtain ⟨i, hi, rfl⟩ := List.mem_map.1 hname
    rw [List.mem_range] at hi
    obtain ⟨c, hc, hnamed⟩ := h.exists_chord (show tick + i < t.ticks by omega)
    rw [hc]
    exact hnamed.not_mem_name

/-- The names at ticks within the song are equal exactly if the harmonies are. -/
theorem names_eq_iff (h : t.NamedRuns) {a b m n : Nat} (hm : t.sectionTicks a = m)
    (hn : t.sectionTicks b = n) (ha : a + m ≤ t.ticks) (hb : b + n ≤ t.ticks) :
    t.names a m = t.names b n ↔ t.SameSection a b := by
  have hat {tick count i : Nat} (hle : tick + count ≤ t.ticks) (hi : i < count) :
      ∃ c, t.chord? ((tick : Int) + i) = some c ∧ c.Named :=
    h.exists_chord (show tick + i < t.ticks by omega)
  rw [SameSection, hm, hn]
  constructor
  · intro heq
    obtain rfl : m = n := by simpa [names] using congrArg List.length heq
    refine ⟨rfl, fun i hi => ?_⟩
    rw [Int.ofNat_lt] at hi
    obtain ⟨c, hc, hnamed⟩ := hat ha hi
    obtain ⟨d, hd, hnamed'⟩ := hat hb hi
    have hname := List.map_inj_left.1 heq i (List.mem_range.2 hi)
    rw [Int.natCast_add, hc, Int.natCast_add, hd] at hname
    exact ⟨c, d, hc, hd, (hnamed.name_eq_iff hnamed').1 hname⟩
  · rintro ⟨hlength, hharmony⟩
    obtain rfl := Int.ofNat.inj hlength
    refine List.map_inj_left.2 fun i hi => ?_
    rw [List.mem_range] at hi
    obtain ⟨c, hc, hnamed⟩ := hat ha hi
    obtain ⟨d, hd, hnamed'⟩ := hat hb hi
    obtain ⟨c', d', hc', hd', hsame⟩ := hharmony i (Int.ofNat_lt.2 hi)
    obtain rfl := Option.some.inj (hc.symm.trans hc')
    obtain rfl := Option.some.inj (hd.symm.trans hd')
    rw [Int.natCast_add, hc, Int.natCast_add, hd]
    exact (hnamed.name_eq_iff hnamed').2 hsame

end NamedRuns

end

end Timeline

/-! ## Counting -/

/-- The different results of a function over a list are those of a part of the list. -/
theorem exists_representatives {α β : Type} [BEq β] [LawfulBEq β] (f : α → β) (xs : List α) :
    ∃ reps : List α, reps.Sublist xs ∧ reps.Pairwise (fun x y => f x ≠ f y) ∧
      reps.map f = (xs.map f).eraseDups := by
  induction hlength : xs.length using Nat.strongRecOn generalizing xs with
  | ind n ih =>
    subst hlength
    cases xs with
    | nil => exact ⟨[], .slnil, .nil, rfl⟩
    | cons x xs =>
      -- behind the first element, those with its result are left out
      have hle := List.length_filter_le (fun y => !f y == f x) xs
      obtain ⟨reps, hsub, hdistinct, hmap⟩ := ih _ (Nat.lt_succ_of_le hle) _ rfl
      refine ⟨x :: reps, (hsub.trans List.filter_sublist).cons_cons x, .cons ?_ hdistinct, ?_⟩
      · rintro y hy heq
        have hother := (List.mem_filter.1 (hsub.subset hy)).2
        rw [heq] at hother
        simp at hother
      · rw [List.map_cons, List.map_cons, List.eraseDups_cons, List.filter_map, hmap]
        rfl

namespace Timeline

/-- The texts of the sections that start at some ticks are faithful: they are expanded into the
names of the chords, they are equal exactly if the sections are, and they count the sections that
are not. -/
structure SectionsFaithful (t : Timeline) (starts : List Int) : Prop where
  starts_eq : t.sectionStarts = .ok starts
  expanded : ∀ tick : Nat, tick < t.ticks → ∃ (text : Text) (n : Nat),
    t.sectionText? tick = .ok (some text) ∧ t.sectionTicks tick = n ∧
      expandedNames text = t.names tick n
  text_eq_iff : ∀ a ∈ starts, ∀ b ∈ starts,
    t.sectionText? a = t.sectionText? b ↔ t.SameSection a b
  count : ∃ reps : List Int, t.distinctSectionCount = .ok reps.length ∧ reps.Sublist starts ∧
    reps.Pairwise (fun a b => ¬ t.SameSection a b) ∧ ∀ a ∈ starts, ∃ b ∈ reps, t.SameSection a b

section
variable {t : Timeline}

/-- The section around a tick ends within the song. -/
theorem FindsSections.exists_sectionTicks {os : List (Occurrence Nat)} (h : FindsSections t os)
    {tick : Nat} (htick : tick < t.ticks) :
    ∃ n : Nat, t.sectionTicks tick = n ∧ 0 < n ∧ tick + n ≤ t.ticks := by
  obtain ⟨o, ho, hlo, hhi⟩ := h.tiles.exists_covering (Nat.zero_le _) htick
  have hcounter := h.counter o ho tick hlo hhi
  obtain ⟨-, -, hle⟩ := h.tiles.bounds ho
  exact ⟨o.start + o.ticks - tick, by omega, by omega, by omega⟩

/-- The number of different texts is that of the sections which differ. -/
theorem exists_distinctSectionCount {starts : List Int} {text : Int → Option Text}
    (hstarts : t.sectionStarts = .ok starts)
    (htext : ∀ a ∈ starts, t.sectionText? a = .ok (text a))
    (heq : ∀ a ∈ starts, ∀ b ∈ starts, t.sectionText? a = t.sectionText? b ↔ t.SameSection a b) :
    ∃ reps : List Int, t.distinctSectionCount = .ok reps.length ∧ reps.Sublist starts ∧
      reps.Pairwise (fun a b => ¬ t.SameSection a b) ∧
        ∀ a ∈ starts, ∃ b ∈ reps, t.SameSection a b := by
  have hiff : ∀ a ∈ starts, ∀ b ∈ starts, text a = text b ↔ t.SameSection a b := by
    intro a ha b hb
    rw [← heq a ha b hb, htext a ha, htext b hb, Except.ok.injEq]
  have htexts : starts.mapM t.sectionText? = .ok (starts.map text) :=
    Outcome.mapM_eq_ok_iff.2 (List.forall₂_map_right_iff.2 (List.forall₂_same.2 htext))
  obtain ⟨reps, hsub, hdistinct, hmap⟩ := exists_representatives text starts
  refine ⟨reps, ?_, hsub, ?_, fun a ha => ?_⟩
  · refine Outcome.bind_eq_ok_iff.2 ⟨starts, hstarts, Outcome.bind_eq_ok_iff.2 ⟨_, htexts, ?_⟩⟩
    rw [← hmap, List.length_map]
    rfl
  · refine hdistinct.imp_of_mem fun ha hb hne => ?_
    rwa [← hiff _ (hsub.subset ha) _ (hsub.subset hb)]
  · have hmem : text a ∈ reps.map text := by
      rw [hmap, List.mem_eraseDups]
      exact List.mem_map_of_mem ha
    obtain ⟨b, hb, hba⟩ := List.mem_map.1 hmem
    exact ⟨b, hb, (hiff a ha b (hsub.subset hb)).1 hba.symm⟩

/-- The texts of the sections of named runs are faithful. -/
theorem NamedRuns.sectionsFaithful (h : t.NamedRuns) {os : List (Occurrence Nat)}
    (hos : FindsSections t os) : SectionsFaithful t (os.map fun o => (o.start : Int)) := by
  have hexpanded : ∀ tick : Nat, tick < t.ticks → ∃ (text : Text) (n : Nat),
      t.sectionText? tick = .ok (some text) ∧ t.sectionTicks tick = n ∧
        expandedNames text = t.names tick n := by
    intro tick htick
    obtain ⟨n, hn, hpos, hle⟩ := hos.exists_sectionTicks htick
    exact ⟨_, n, h.sectionText?_eq hn hpos hle, hn, h.expandedNames_eq hpos hle⟩
  have hstart : ∀ a ∈ os.map fun o => (o.start : Int), ∃ tick : Nat, a = tick ∧ tick < t.ticks := by
    intro a ha
    obtain ⟨o, ho, rfl⟩ := List.mem_map.1 ha
    obtain ⟨-, hpos, hle⟩ := hos.tiles.bounds ho
    exact ⟨o.start, rfl, by omega⟩
  have heq : ∀ a ∈ os.map fun o => (o.start : Int), ∀ b ∈ os.map fun o => (o.start : Int),
      t.sectionText? a = t.sectionText? b ↔ t.SameSection a b := by
    intro a ha b hb
    obtain ⟨a, rfl, ha'⟩ := hstart a ha
    obtain ⟨b, rfl, hb'⟩ := hstart b hb
    obtain ⟨m, hm, hmpos, hmle⟩ := hos.exists_sectionTicks ha'
    obtain ⟨n, hn, hnpos, hnle⟩ := hos.exists_sectionTicks hb'
    rw [h.sectionText?_eq hm hmpos hmle, h.sectionText?_eq hn hnpos hnle,
      ← h.names_eq_iff hm hn hmle hnle, Except.ok.injEq, Option.some.injEq]
    constructor
    · intro htext
      rw [← h.expandedNames_eq hmpos hmle, htext, h.expandedNames_eq hnpos hnle]
    · exact congrArg writeNames
  have htext : ∀ a ∈ os.map fun o => (o.start : Int), t.sectionText? a =
      .ok (some (writeNames (t.names a.toNat (t.sectionTicks a).toNat))) := by
    intro a ha
    obtain ⟨tick, rfl, htick⟩ := hstart a ha
    obtain ⟨n, hn, hpos, hle⟩ := hos.exists_sectionTicks htick
    rw [h.sectionText?_eq hn hpos hle, hn, Int.toNat_natCast, Int.toNat_natCast]
  exact ⟨hos.starts_eq, hexpanded, heq, exists_distinctSectionCount hos.starts_eq htext heq⟩

end

end Timeline

/-- The texts of the sections of a rendered timeline are faithful. -/
theorem HarmonyEngine.sections_faithful {σ : Type} [Source σ] {engine : HarmonyEngine}
    {song : Structure} {source : σ} {t : Timeline}
    (h : (engine.renderFrom song source).result = .ok t) : ∃ starts, t.SectionsFaithful starts := by
  obtain ⟨first, rest, -, htimeline⟩ := renderFrom_eq_ok_iff.1 h
  obtain ⟨items, hitems, hchords, hcounters, hsections⟩ :=
    Stamping.exists_stamps_of_timeline htimeline
  obtain ⟨-, hpos, -⟩ := Stamping.sections_tile (Stamping.tiles_stamps hitems)
  have hruns := Timeline.namedRuns_of_columns (Stamping.renderedRuns_of_stamps hitems) hchords
    hcounters
  exact ⟨_, hruns.sectionsFaithful (Timeline.findsSections hpos hsections)⟩

/-- Two sections that are the same, the second of which ends within a run, and one that is not. -/
theorem HarmonyEngine.sections_faithful_across :
    let engine : HarmonyEngine :=
      ⟨[⟨"C/1,G/1,+C/1,G/1,+G/2".toList, none, none, by decide⟩], [], false, 2, by simp⟩
    let song : Structure := ⟨6, 1, 127, by decide, by decide, by decide⟩
    ∃ t, (engine.renderFrom song ([] : List Nat)).result = .ok t ∧
      t.sectionText? 2 = .ok (some "C/1,G/1".toList) ∧ t.chordTicks 3 = 3 ∧
      t.SameSection 0 2 ∧ ¬ t.SameSection 0 4 := by
  intro engine song
  let c : Chord := ⟨0, .major, 0, ['C']⟩
  let g : Chord := ⟨7, .major, -1, ['G']⟩
  let t : Timeline := ⟨#[⟨c, 1, 2⟩, ⟨g, 1, 1⟩, ⟨c, 1, 2⟩, ⟨g, 3, 1⟩, ⟨g, 2, 2⟩, ⟨g, 1, 1⟩]⟩
  have hrender : (engine.renderFrom song ([] : List Nat)).result = .ok t := by decide +kernel
  have hstarts : t.sectionStarts = .ok [0, 2, 4] := by decide +kernel
  obtain ⟨starts, hfaithful⟩ := sections_faithful hrender
  cases hstarts.symm.trans hfaithful.starts_eq
  refine ⟨t, hrender, by decide +kernel, by decide +kernel, ?_, ?_⟩
  · exact (hfaithful.text_eq_iff 0 (by simp) 2 (by simp)).1 (by decide +kernel)
  · rw [← hfaithful.text_eq_iff 0 (by simp) 4 (by simp)]
    decide +kernel

end Songsmith
