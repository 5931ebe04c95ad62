import Songsmith.Proofs.Midi.Bracketing
import Songsmith.Proofs.Pattern.RoundTrip
import Songsmith.Proofs.Song.Parts
import Songsmith.Proofs.Track.Parts

/-!
# Wildcards from the declaration to the events

A track declares its wildcards with their pitches, under keys. Its engine is given all characters of
all keys as wildcards, but where the events are made a pitch is looked up under a whole key. So a
wildcard that is left in the pattern of a track is a character of a key, and the events fail for the
lack of its pitch exactly if it is not a key itself (`Song.events_dangling_iff`). If the characters
of the keys are keys, as they are where every key is one character, that cannot happen.
-/

namespace Songsmith

/-- The keys under which the pitches of wildcards are given. -/
def Track.keys (t : Track) : List Text := t.wildcards.map (·.1)

/-! ## Looking up pitches -/

/-- Looking a wildcard up fails when no offset is given for it, and says which one it is. -/
theorem Entry.lookup_eq_error_iff {offsets : List (Text × Int)} {w : Text} {e : Error} :
    lookup offsets w = .error e ↔ w ∉ offsets.map (·.1) ∧ e = .dangling (.wildcard w) := by
  unfold lookup
  split
  · rename_i hfound
    have hkey : w ∈ offsets.map (·.1) := by
      have hbeq := List.find?_some hfound
      exact List.mem_map.2 ⟨_, List.mem_of_find?_eq_some hfound, eq_of_beq hbeq⟩
    exact ⟨nofun, fun h => absurd hkey h.1⟩
  · rename_i hnone
    have hkey : w ∉ offsets.map (·.1) := by
      intro hmem
      obtain ⟨entry, hentry, rfl⟩ := List.mem_map.1 hmem
      exact List.find?_eq_none.1 hnone entry hentry (beq_self_eq_true _)
    rw [Except.error.injEq, eq_comm]
    exact ⟨fun h => ⟨hkey, h⟩, fun h => h.2⟩

/-- Giving an entry its pitch fails when its wildcard has no offset. -/
theorem Entry.assign_eq_error_iff {offsets : List (Text × Int)} {entry : Entry} {e : Error} :
    entry.assign offsets = .error e ↔
      ∃ w ∈ entry.wildcard, w ∉ offsets.map (·.1) ∧ e = .dangling (.wildcard w) := by
  unfold assign
  split
  · rename_i hnone
    simp [hnone]
  · rename_i w hw
    rw [hw]
    simp only [Option.mem_some_iff, exists_eq_left']
    rw [← lookup_eq_error_iff]
    cases lookup offsets w <;> simp [Except.map]

/-- A pattern is resolved, or it fails for the lack of the pitch of one of its wildcards. -/
theorem Pattern.exists_assign_eq_error_iff {pattern : Pattern} {offsets : List (Text × Int)} :
    (∃ cause, pattern.assign offsets = .error (.dangling cause)) ↔
      ∃ e ∈ pattern.entries, ∃ w ∈ e.wildcard, w ∉ offsets.map (·.1) := by
  constructor
  · rintro ⟨cause, h⟩
    rcases Outcome.bind_eq_error_iff.1 h with h | ⟨entries, hentries, h⟩
    · obtain ⟨before, e, after, -, hcut, -, he⟩ := Outcome.mapM_eq_error_iff.1 h
      obtain ⟨w, hw, hkey, -⟩ := Entry.assign_eq_error_iff.1 he
      exact ⟨e, by simp [hcut], w, hw, hkey⟩
    · unfold ofEntries at h
      split at h <;> cases h
  · rintro ⟨e, he, w, hw, hkey⟩
    cases h : pattern.entries.mapM (Entry.assign offsets) with
    | ok entries =>
      obtain ⟨e', -, he'⟩ := Outcome.exists_rel_of_mem (Outcome.mapM_eq_ok_iff.1 h).flip he
      rw [Entry.assign_eq_error_iff.2 ⟨w, hw, hkey, rfl⟩] at he'
      cases he'
    | error e' =>
      obtain ⟨before, e, after, -, hcut, -, he⟩ := Outcome.mapM_eq_error_iff.1 h
      obtain ⟨w, hw, hkey, rfl⟩ := Entry.assign_eq_error_iff.1 he
      exact ⟨_, Outcome.bind_eq_error_iff.2 (.inl h)⟩

/-- The events of a pattern fail for the lack of a pitch exactly if one of its wildcards is not
given any. -/
theorem patternEvents_dangling_iff {pattern : Pattern} {ticks : Int}
    {placement : PatternEvents.Placement} {offsets : List (Text × Int)} :
    (∃ cause, (patternEvents pattern ticks placement offsets).result = .error (.dangling cause)) ↔
      ∃ e ∈ pattern.entries, ∃ w ∈ e.wildcard, w ∉ offsets.map (·.1) := by
  rw [← Pattern.exists_assign_eq_error_iff]
  refine exists_congr fun cause => ?_
  cases h : pattern.assign offsets with
  | error e =>
    simp only [patternEvents, Traced.result_bind, Traced.result_ofExcept, h]
    show (Except.error e : Except Error (List NoteEvent)) = _ ↔ _
    rw [Except.error.injEq, Except.error.injEq]
  | ok resolved =>
    obtain ⟨hok, herror⟩ := PatternEvents.result_reportEach_skipped placement
      (Cycle.lay Entry.ticks resolved.entries ticks.toNat)
    rw [PatternEvents.result_patternEvents h]
    refine iff_of_false (fun hevents => ?_) fun hassign => by cases hassign
    rcases Outcome.bind_eq_error_iff.1 hevents with hreport | ⟨_, -, hevents⟩
    · by_cases hreportable : PatternEvents.Reportable placement
          (Cycle.lay Entry.ticks resolved.entries ticks.toNat)
      · rw [hok hreportable] at hreport
        cases hreport
      · rw [herror hreportable] at hreport
        cases hreport
    · cases hevents

/-! ## Rendering tracks -/

/-- What an engine renders is read from some text. -/
theorem TrackEngine.exists_parse_of_render [Machine] {engine : TrackEngine} {song : Structure}
    {seed : Int} {wildcards : Text} {p : Pattern}
    (h : (engine.render song seed wildcards).result = .ok p) :
    ∃ text ticksPerBeat, Pattern.parse text ticksPerBeat wildcards song.maxVelocity = .ok p := by
  cases engine with
  | literal track =>
    simp only [render, LiteralTrack.render, LiteralTrack.renderFrom, Traced.result_bind,
      Traced.result_ofExcept] at h
    obtain ⟨-, -, h⟩ := Outcome.bind_eq_ok_iff.1 h
    obtain ⟨text, -, h⟩ := Outcome.bind_eq_ok_iff.1 h
    exact ⟨text, _, h⟩
  | fragments track =>
    obtain ⟨text, -, h⟩ := FragmentTrack.renderFrom_inv h
    exact ⟨text, _, h⟩
  | crescendo track =>
    simp only [render, CrescendoTrack.render, Traced.result_bind, Traced.result_ofExcept] at h
    obtain ⟨text, -, h⟩ := Outcome.bind_eq_ok_iff.1 h
    exact ⟨text, _, h⟩

namespace Song

/-- A track that is read has the pattern and the wildcards that it is read with. -/
theorem readTrack_inv {d : Document} {name : Text} {pattern : Pattern}
    {wildcards : List (Text × Int)} {t : Track} (h : readTrack d name pattern wildcards = .ok t) :
    t.pattern = pattern ∧ t.wildcards = wildcards := by
  obtain ⟨channel, -, h⟩ := Outcome.bind_eq_ok_iff.1 h
  obtain ⟨basePitch, -, h⟩ := Outcome.bind_eq_ok_iff.1 h
  obtain ⟨followChords, -, h⟩ := Outcome.bind_eq_ok_iff.1 h
  unfold Track.make at h
  split at h
  · cases h
    exact ⟨rfl, rfl⟩
  · obtain ⟨_, -, h⟩ := Outcome.bind_eq_ok_iff.1 h
    cases h

section
variable [Machine]

/-- A track that is built has the wildcards of its entry, and the pattern that its engine renders
with the characters of all their keys. -/
theorem buildTrack_inv {frame : Structure} {index : Nat} {seed : Int} {d : Document} {t : Track}
    (h : (buildTrack frame index seed d).result = .ok t) :
    readWildcards d = .ok t.wildcards ∧ ∃ name engine, readEngine d name = .ok engine ∧
      (engine.render frame seed (t.wildcards.flatMap (·.1))).result = .ok t.pattern := by
  simp only [buildTrack, Traced.result_bind, Traced.result_ofExcept] at h
  obtain ⟨name, -, h⟩ := Outcome.bind_eq_ok_iff.1 h
  obtain ⟨engine, hengine, h⟩ := Outcome.bind_eq_ok_iff.1 h
  obtain ⟨wildcards, hwildcards, h⟩ := Outcome.bind_eq_ok_iff.1 h
  obtain ⟨pattern, hpattern, h⟩ := Outcome.bind_eq_ok_iff.1 h
  obtain ⟨_, -, h⟩ := Outcome.bind_eq_ok_iff.1 h
  obtain ⟨_, -, h⟩ := Outcome.bind_eq_ok_iff.1 h
  obtain ⟨_, -, h⟩ := Outcome.bind_eq_ok_iff.1 h
  obtain ⟨rfl, rfl⟩ := readTrack_inv h
  exact ⟨hwildcards, name, engine, hengine, hpattern⟩

/-- A wildcard that is left in the pattern of a track is a character of one of its keys. -/
theorem exists_key_of_buildTrack {frame : Structure} {index : Nat} {seed : Int} {d : Document}
    {t : Track} (h : (buildTrack frame index seed d).result = .ok t) :
    ∀ e ∈ t.pattern.entries, ∀ w ∈ e.wildcard, ∃ c, w = [c] ∧ ∃ key ∈ t.keys, c ∈ key := by
  obtain ⟨-, _, engine, -, hrender⟩ := buildTrack_inv h
  obtain ⟨text, ticksPerBeat, hparse⟩ := TrackEngine.exists_parse_of_render hrender
  have hmax : (1 : Int) ≤ frame.maxVelocity := by have := frame.maxVelocity_pos; omega
  intro e he w hw
  have hreadable := (Pattern.Built.parse hparse).readable hmax e he
  cases hreadable with
  | pause => cases hw
  | note => cases hw
  | @wildcard _ c _ _ _ _ _ _ hdeclared =>
    cases hw
    obtain ⟨entry, hentry, hc⟩ := List.mem_flatMap.1 (List.contains_iff_mem.1 hdeclared)
    exact ⟨c, rfl, entry.1, List.mem_map_of_mem hentry, hc⟩

section
variable {σ : Type} [Source σ]

/-- Every track of a list that is built is built from an entry. -/
theorem exists_buildTrack_of_mem {frame : Structure} {index : Nat} {docs : List Document}
    {source : σ} {tracks : List Track}
    (h : (buildTracks frame index docs source).result = .ok tracks) {t : Track} (ht : t ∈ tracks) :
    ∃ index seed d, (buildTrack frame index seed d).result = .ok t := by
  induction docs generalizing index source tracks with
  | nil =>
    cases h
    cases ht
  | cons d rest ih =>
    obtain ⟨track, others, htrack, hothers, rfl⟩ := buildTracks_cons_inv h
    rcases List.mem_cons.1 ht with rfl | ht
    · exact ⟨index, _, d, htrack⟩
    · exact ih hothers ht

end

/-- Every track of a song that is built is built by itself. -/
theorem exists_buildTrack_of_build {d : Document} {seed : Option Int} {song : Song}
    (h : (build d seed).result = .ok song) {t : Track} (ht : t ∈ song.tracks) :
    ∃ index seed entry, (buildTrack song.frame index seed entry).result = .ok t := by
  cases seed with
  | none =>
    simp only [build, Traced.result_bind, Traced.result_ofExcept] at h
    obtain ⟨_, -, h⟩ := Outcome.bind_eq_ok_iff.1 h
    cases h
  | some seed =>
    simp only [build, buildFrom, Traced.result_bind, Traced.result_pure,
      Traced.result_ofExcept] at h
    obtain ⟨frame, -, h⟩ := Outcome.bind_eq_ok_iff.1 h
    obtain ⟨_, -, h⟩ := Outcome.bind_eq_ok_iff.1 h
    obtain ⟨engine, -, h⟩ := Outcome.bind_eq_ok_iff.1 h
    obtain ⟨harmony, -, h⟩ := Outcome.bind_eq_ok_iff.1 h
    obtain ⟨_, -, h⟩ := Outcome.bind_eq_ok_iff.1 h
    obtain ⟨entries, -, h⟩ := Outcome.bind_eq_ok_iff.1 h
    obtain ⟨tracks, htracks, h⟩ := Outcome.bind_eq_ok_iff.1 h
    cases h
    exact exists_buildTrack_of_mem htracks ht

/-- The wildcards that are left in the tracks of a song that is built are characters of their keys,
and the events of a track fail for the lack of a pitch exactly if one of them is not a key. So they
do not if every character of a key is a key. -/
theorem events_dangling_iff {d : Document} {seed : Option Int} {song : Song}
    (h : (build d seed).result = .ok song) :
    ∀ t ∈ song.tracks,
      (∀ e ∈ t.pattern.entries, ∀ w ∈ e.wildcard, ∃ c, w = [c] ∧ ∃ key ∈ t.keys, c ∈ key) ∧
      (∀ ticks placement,
        (∃ cause, (patternEvents t.pattern ticks placement t.wildcards).result =
            .error (.dangling cause)) ↔
          ∃ e ∈ t.pattern.entries, ∃ w ∈ e.wildcard, w ∉ t.keys) ∧
      ((∀ key ∈ t.keys, ∀ c ∈ key, [c] ∈ t.keys) → ∀ ticks placement cause,
        (patternEvents t.pattern ticks placement t.wildcards).result ≠
          .error (.dangling cause)) := by
  intro t ht
  obtain ⟨index, seed, entry, htrack⟩ := exists_buildTrack_of_build h ht
  have hkeys := exists_key_of_buildTrack htrack
  refine ⟨hkeys, fun ticks placement => patternEvents_dangling_iff, ?_⟩
  intro hsingle ticks placement cause hevents
  obtain ⟨e, he, w, hw, hkey⟩ := patternEvents_dangling_iff.1 ⟨cause, hevents⟩
  obtain ⟨c, rfl, key, hmem, hc⟩ := hkeys e he w hw
  exact hkey (hsingle key hmem c hc)

end

/-! ## Two songs -/

/-- A track that plays the wildcard `a`, declared under a key. -/
def wildcardTrack (key : Text) : Document := .mapping [("patterns".toList, .text ['a']),
  ("wildcards".toList, .mapping [(key, .integer 1)])]

/-- A song of one bar with this track only. -/
def wildcardSong (key : Text) : Document := .mapping [
  ("structure".toList, .mapping [("bars".toList, .integer 1)]),
  ("harmony".toList, .mapping [("chord_patterns".toList, .list [.text "C/4,G/4".toList])]),
  ("tracks".toList, .list [wildcardTrack key])]

/-- The frame of the song. -/
def oneBar : Structure := ⟨16, 4, 127, by decide, by decide, by decide⟩

/-- The chord pattern of the song. -/
def twoChords : ChordPattern := ⟨"C/4,G/4".toList, none, none, by decide⟩

/-- The harmony engine of the song. -/
def twoChordEngine : HarmonyEngine :=
  ⟨[twoChords], [], true, Chord.defaultCrossover, List.cons_ne_nil _ _⟩

/-- What the track plays: the wildcard for one tick. -/
def wildcardPattern : Pattern :=
  ⟨[⟨1, none, some ['a'], 127, false, by decide⟩], List.cons_ne_nil _ _⟩

/-- The harmony of the song is rendered from every seed. -/
theorem exists_render_twoChordEngine (seed : Int) :
    ∃ t, (twoChordEngine.render oneBar seed).result = .ok t := by
  have hread : twoChords.tokens =
      .ok [⟨false, ['C'], ⟨['4'], 4⟩⟩, ⟨false, ['G'], ⟨['4'], 4⟩⟩] := by decide +kernel
  have hdrawless : twoChords.Drawless := by
    intro tokens htokens
    rw [hread] at htokens
    cases htokens
    decide
  -- nothing is drawn, so the rendering can be computed from an empty source
  have hrender : (twoChordEngine.renderFrom oneBar ([] : List Nat)).result =
      .ok ⟨((List.range 16).map fun i =>
        ⟨some ⟨0, .major, 0, ['C']⟩, 16 - i, 16 - i⟩).toArray⟩ := by decide +kernel
  have hsame := HarmonyEngine.result_renderFrom_of_drawless
    (show twoChordEngine.patterns = [twoChords] from rfl) hdrawless oneBar (Twister.ofSeed seed)
    ([] : List Nat)
  exact ⟨_, hsame.trans hrender⟩

/-- The text of the track is read if its character is a wildcard. -/
theorem parse_wildcardPattern {wildcards : Text} (h : wildcards.contains 'a' = true) :
    Pattern.parse ['a'] none wildcards 127 = .ok wildcardPattern := by
  have hparts : Token.ofText? (Text.trim ['a']) = some ⟨.sign 'a', false, none, none⟩ := by
    decide +kernel
  have hentry : Entry.parse none wildcards 127 ['a'] =
      .ok ⟨1, none, some ['a'], 127, false, by decide⟩ := by
    rw [Entry.parse, hparts]
    exact if_pos h
  have hblank : Text.isBlank ['a'] = false := by decide
  have hcut : (['a'] : Text).splitOn ',' = [['a']] := by decide
  rw [Pattern.parse, hblank, hcut, if_neg Bool.false_ne_true]
  exact Outcome.bind_eq_ok_iff.2 ⟨_, Outcome.mapM_eq_ok_iff.2 (.cons hentry .nil), rfl⟩

/-- The song is built if the key makes the wildcard known, and the wildcard is left in its track. -/
theorem exists_build_wildcardSong {key : Text} (hkey : key.contains 'a' = true) (seed : Int) :
    let _ := Machine.small
    ∃ song t, (build (wildcardSong key) (some seed)).result = .ok song ∧ t ∈ song.tracks ∧
      t.keys = [key] ∧ ∃ e ∈ t.pattern.entries, e.wildcard = some ['a'] := by
  intro machine
  have hparse : Pattern.parse ['a'] none (key ++ []) 127 = .ok wildcardPattern :=
    parse_wildcardPattern (by rwa [List.append_nil])
  have hwrite : wildcardPattern.write = .ok "a/1".toList := by decide +kernel
  have hexpand : Shorthand.expand ['a'] = .ok ['a'] := by decide +kernel
  have hname : ∀ index, ∃ name, readName (wildcardTrack key) index = .ok (.text name) :=
    fun _ => ⟨_, rfl⟩
  have hengine : ∀ name, readEngine (wildcardTrack key) name =
      .ok (.literal ⟨[['a']], none, List.cons_ne_nil _ _⟩) := fun _ => rfl
  have hwildcards : readWildcards (wildcardTrack key) = .ok [(key, 1)] := rfl
  have hread : ∀ name, ∃ t,
      readTrack (wildcardTrack key) name wildcardPattern [(key, 1)] = .ok t := fun _ => ⟨_, rfl⟩
  have htrack : ∀ index seed, ∃ t,
      (buildTrack oneBar index seed (wildcardTrack key)).result = .ok t :=
    exists_buildTrack_of_literal oneBar hname hengine rfl hwildcards hexpand hparse hwrite hread
  have hframe : sectionAt (wildcardSong key) "structure" >>= readStructure = .ok oneBar := rfl
  have hharmony : (readHarmony (.mapping [("chord_patterns".toList,
      .list [.text "C/4,G/4".toList])])).result = .ok twoChordEngine := rfl
  obtain ⟨song, hsong⟩ := exists_buildFrom hframe rfl hharmony exists_render_twoChordEngine rfl
    (fun d hd => (List.mem_singleton.1 hd) ▸ htrack) (Twister.ofSeed seed)
  have hconsists := consists_of_buildFrom hsong
  obtain ⟨entries, hentries, htracks⟩ := hconsists.track
  cases hentries
  obtain ⟨t, ht, hbuilt⟩ := htracks 0 (wildcardTrack key) rfl
  obtain ⟨hown, name, engine, hfound, hpattern⟩ := buildTrack_inv hbuilt
  cases (hengine name).symm.trans hfound
  have hkeys : t.wildcards = [(key, 1)] := Except.ok.inj (hown.symm.trans hwildcards)
  have hsame : song.frame = oneBar := Except.ok.inj (hconsists.frame.symm.trans hframe)
  rw [TrackEngine.render, LiteralTrack.render, LiteralTrack.result_renderFrom_singleton rfl,
    hexpand, hkeys, hsame] at hpattern
  have hplayed : wildcardPattern = t.pattern := Except.ok.inj (hparse.symm.trans hpattern)
  refine ⟨song, t, hsong, List.mem_of_getElem? ht, by rw [Track.keys, hkeys]; rfl, ?_⟩
  rw [← hplayed]
  exact ⟨_, List.mem_singleton_self _, rfl⟩

/-- Under a key of one character the pitch of the wildcard is found. -/
theorem events_dangling_iff_single :
    let _ := Machine.small
    ∃ song t, (build (wildcardSong ['a']) (some 0)).result = .ok song ∧ t ∈ song.tracks ∧
      (∃ e ∈ t.pattern.entries, e.wildcard = some ['a']) ∧ ∀ cause,
        (patternEvents t.pattern song.frame.ticks ⟨t.basePitch, some song.harmony⟩
          t.wildcards).result ≠ .error (.dangling cause) := by
  intro machine
  have hdeclared : (['a'] : Text).contains 'a' = true := by decide
  obtain ⟨song, t, hsong, ht, hkeys, hleft⟩ := exists_build_wildcardSong hdeclared 0
  obtain ⟨-, -, hfound⟩ := events_dangling_iff hsong t ht
  refine ⟨song, t, hsong, ht, hleft, hfound ?_ _ _⟩
  rw [hkeys]
  simp

/-- Under a key of two characters each of them is a wildcard, and neither has a pitch. -/
theorem exists_dangling_of_pair :
    let _ := Machine.small
    ∃ song t, (build (wildcardSong ['a', 'b']) (some 0)).result = .ok song ∧ t ∈ song.tracks ∧
      t.keys = [['a', 'b']] ∧ (∃ e ∈ t.pattern.entries, e.wildcard = some ['a']) ∧ ∃ cause,
        (patternEvents t.pattern song.frame.ticks ⟨t.basePitch, some song.harmony⟩
          t.wildcards).result = .error (.dangling cause) := by
  intro machine
  have hdeclared : (['a', 'b'] : Text).contains 'a' = true := by decide
  obtain ⟨song, t, hsong, ht, hkeys, e, he, hwildcard⟩ := exists_build_wildcardSong hdeclared 0
  refine ⟨song, t, hsong, ht, hkeys, ⟨e, he, hwildcard⟩, patternEvents_dangling_iff.2 ?_⟩
  refine ⟨e, he, ['a'], hwildcard, ?_⟩
  rw [← Track.keys, hkeys]
  decide

end Song

end Songsmith
