import Songsmith.Proofs.Harmony.Draws
import Songsmith.Proofs.Pattern.Expansion
import Songsmith.Song.Build

/-!
# The parts of a song

The seeds of the harmony and of the tracks are drawn one after the other from a source that nothing
else draws from (`Song.seedAt`). So a song is built of parts that know nothing of each other
(`Song.Consists`): the harmony comes from the section of the harmony and the first seed, and each
track from its own entry, its number and the seed of that number. Two songs with the same structure
and the same seed share every part that is described in the same way (`Song.parts_independent`).
-/

namespace Songsmith

/-- A literal track of one text gives the pattern of that text, whatever is drawn. -/
theorem LiteralTrack.result_renderFrom_singleton {σ : Type} [Machine] [Source σ]
    {track : LiteralTrack} {text : Text} (htexts : track.texts = [text]) (song : Structure)
    (source : σ) (wildcards : Text) :
    (track.renderFrom song source wildcards).result = Shorthand.expand text >>= fun expanded =>
      Pattern.parse expanded track.ticksPerBeat wildcards song.maxVelocity := by
  simp only [renderFrom, Traced.result_bind, Traced.result_ofExcept,
    Source.pick_singleton source htexts]
  rfl

namespace Song

section
variable [Machine]

/-- A literal track of one text that can be read is built under every number and from every seed,
if the other settings of its entry can be read. -/
theorem exists_buildTrack_of_literal (frame : Structure) {entry : Document} {track : LiteralTrack}
    {text expanded written : Text} {pattern : Pattern} {wildcards : List (Text × Int)}
    (hname : ∀ index, ∃ name, readName entry index = .ok (.text name))
    (hengine : ∀ name, readEngine entry name = .ok (.literal track)) (htexts : track.texts = [text])
    (hwildcards : readWildcards entry = .ok wildcards)
    (hexpand : Shorthand.expand text = .ok expanded)
    (hparse : Pattern.parse expanded track.ticksPerBeat (wildcards.flatMap (·.1))
      frame.maxVelocity = .ok pattern)
    (hwrite : pattern.write = .ok written)
    (htrack : ∀ name, ∃ t, readTrack entry name pattern wildcards = .ok t) (index : Nat)
    (seed : Int) : ∃ t, (buildTrack frame index seed entry).result = .ok t := by
  have hrender : ((TrackEngine.literal track).render frame seed
      (wildcards.flatMap (·.1))).result = .ok pattern := by
    rw [TrackEngine.render, LiteralTrack.render, LiteralTrack.result_renderFrom_singleton htexts,
      hexpand]
    exact hparse
  obtain ⟨name, hname⟩ := hname index
  obtain ⟨t, htrack⟩ := htrack name
  refine ⟨t, ?_⟩
  simp only [buildTrack, Traced.result_bind, Traced.result_ofExcept]
  exact Outcome.bind_eq_ok_iff.2 ⟨_, hname, Outcome.bind_eq_ok_iff.2 ⟨_, hengine _,
    Outcome.bind_eq_ok_iff.2 ⟨_, hwildcards, Outcome.bind_eq_ok_iff.2 ⟨pattern, hrender,
      Outcome.bind_eq_ok_iff.2 ⟨written, hwrite, Outcome.bind_eq_ok_iff.2 ⟨name, rfl,
        Outcome.bind_eq_ok_iff.2 ⟨(), rfl, htrack⟩⟩⟩⟩⟩⟩⟩

section
variable {σ : Type} [Source σ]

/-- The source behind the first `n` seeds. -/
def sourceAfter : (n : Nat) → σ → σ
  | 0, source => source
  | n + 1, source => sourceAfter n (drawSeed source).2

/-- The seed that is drawn behind `n` others. -/
def seedAt (n : Nat) (source : σ) : Int := (drawSeed (sourceAfter n source)).1

/-! ## Building tracks -/

/-- The first track is built from its entry and the next seed, and the others from what is left of
the source, whatever the first one has drawn. -/
theorem buildTracks_cons_inv {frame : Structure} {index : Nat} {d : Document}
    {rest : List Document} {source : σ} {tracks : List Track}
    (h : (buildTracks frame index (d :: rest) source).result = .ok tracks) :
    ∃ track others, (buildTrack frame index (seedAt 0 source) d).result = .ok track ∧
      (buildTracks frame (index + 1) rest (sourceAfter 1 source)).result = .ok others ∧
      tracks = track :: others := by
  simp only [buildTracks, Traced.result_bind, Traced.result_pure] at h
  obtain ⟨track, htrack, h⟩ := Outcome.bind_eq_ok_iff.1 h
  obtain ⟨others, hothers, h⟩ := Outcome.bind_eq_ok_iff.1 h
  cases h
  exact ⟨track, others, htrack, hothers, rfl⟩

/-- A track is built from its entry, its number and the seed of that number. -/
theorem exists_getElem?_of_buildTracks {frame : Structure} {index : Nat} {docs : List Document}
    {source : σ} {tracks : List Track}
    (h : (buildTracks frame index docs source).result = .ok tracks) {i : Nat} {d : Document}
    (hd : docs[i]? = some d) :
    ∃ track, tracks[i]? = some track ∧
      (buildTrack frame (index + i) (seedAt i source) d).result = .ok track := by
  induction docs generalizing index source tracks i with
  | nil => cases hd
  | cons first rest ih =>
    obtain ⟨track, others, htrack, hothers, rfl⟩ := buildTracks_cons_inv h
    cases i with
    | zero =>
      cases hd
      exact ⟨track, rfl, htrack⟩
    | succ i =>
      obtain ⟨track', hget, htrack'⟩ := ih hothers hd
      rw [Nat.add_assoc, Nat.add_comm 1] at htrack'
      exact ⟨track', hget, htrack'⟩

/-- Tracks are built if each of them is, under every number and from every seed. -/
theorem exists_buildTracks {frame : Structure} {docs : List Document}
    (h : ∀ d ∈ docs, ∀ index seed, ∃ track, (buildTrack frame index seed d).result = .ok track)
    (index : Nat) (source : σ) :
    ∃ tracks, (buildTracks frame index docs source).result = .ok tracks := by
  induction docs generalizing index source with
  | nil => exact ⟨[], rfl⟩
  | cons d rest ih =>
    obtain ⟨track, htrack⟩ := h d List.mem_cons_self index (seedAt 0 source)
    obtain ⟨others, hothers⟩ := ih (fun d hd => h d (List.mem_cons_of_mem _ hd)) (index + 1)
      (sourceAfter 1 source)
    refine ⟨track :: others, ?_⟩
    simp only [buildTracks, Traced.result_bind, Traced.result_pure]
    exact Outcome.bind_eq_ok_iff.2 ⟨track, htrack, Outcome.bind_eq_ok_iff.2 ⟨others, hothers, rfl⟩⟩

/-! ## Building songs -/

/-- The song consists of the parts that the document describes, each from a seed of its own. -/
structure Consists (d : Document) (source : σ) (song : Song) : Prop where
  frame : sectionAt d "structure" >>= readStructure = .ok song.frame
  harmony : ∃ harmonySection engine, sectionAt d "harmony" = .ok harmonySection ∧
    (readHarmony harmonySection).result = .ok engine ∧
    (engine.render song.frame (seedAt 0 source)).result = .ok song.harmony
  track : ∃ entries, itemsAt d "tracks" = .ok entries ∧
    ∀ (i : Nat) (entry : Document), entries[i]? = some entry →
      ∃ track, song.tracks[i]? = some track ∧
        (buildTrack song.frame i (seedAt (i + 1) source) entry).result = .ok track

/-- A song that is built consists of the parts of its document. -/
theorem consists_of_buildFrom {d : Document} {source : σ} {song : Song}
    (h : (buildFrom d source).result = .ok song) : Consists d source song := by
  simp only [buildFrom, Traced.result_bind, Traced.result_pure, Traced.result_ofExcept] at h
  obtain ⟨frame, hframe, h⟩ := Outcome.bind_eq_ok_iff.1 h
  obtain ⟨harmonySection, hsection, h⟩ := Outcome.bind_eq_ok_iff.1 h
  obtain ⟨engine, hengine, h⟩ := Outcome.bind_eq_ok_iff.1 h
  obtain ⟨harmony, hharmony, h⟩ := Outcome.bind_eq_ok_iff.1 h
  obtain ⟨_, -, h⟩ := Outcome.bind_eq_ok_iff.1 h
  obtain ⟨entries, hentries, h⟩ := Outcome.bind_eq_ok_iff.1 h
  obtain ⟨tracks, htracks, h⟩ := Outcome.bind_eq_ok_iff.1 h
  cases h
  refine ⟨hframe, ⟨harmonySection, engine, hsection, hengine, hharmony⟩, entries, hentries,
    fun i entry hentry => ?_⟩
  obtain ⟨track, hget, htrack⟩ := exists_getElem?_of_buildTracks htracks hentry
  rw [Nat.zero_add] at htrack
  exact ⟨track, hget, htrack⟩

/-- A song is built if its parts are, from every seed. -/
theorem exists_buildFrom {d harmonySection : Document} {entries : List Document}
    {frame : Structure} {engine : HarmonyEngine}
    (hframe : sectionAt d "structure" >>= readStructure = .ok frame)
    (hsection : sectionAt d "harmony" = .ok harmonySection)
    (hengine : (readHarmony harmonySection).result = .ok engine)
    (hharmony : ∀ seed, ∃ t, (engine.render frame seed).result = .ok t)
    (hentries : itemsAt d "tracks" = .ok entries)
    (htracks : ∀ entry ∈ entries, ∀ index seed, ∃ track,
      (buildTrack frame index seed entry).result = .ok track) (source : σ) :
    ∃ song, (buildFrom d source).result = .ok song := by
  obtain ⟨harmony, hrender⟩ := hharmony (seedAt 0 source)
  obtain ⟨tracks, hbuild⟩ := exists_buildTracks htracks 0 (sourceAfter 1 source)
  refine ⟨⟨frame, harmony, tracks⟩, ?_⟩
  simp only [buildFrom, Traced.result_bind, Traced.result_pure, Traced.result_ofExcept]
  exact Outcome.bind_eq_ok_iff.2 ⟨frame, hframe, Outcome.bind_eq_ok_iff.2 ⟨_, hsection,
    Outcome.bind_eq_ok_iff.2 ⟨engine, hengine, Outcome.bind_eq_ok_iff.2 ⟨harmony, hrender,
      Outcome.bind_eq_ok_iff.2 ⟨(), rfl, Outcome.bind_eq_ok_iff.2 ⟨_, hentries,
        Outcome.bind_eq_ok_iff.2 ⟨tracks, hbuild, rfl⟩⟩⟩⟩⟩⟩⟩

/-- What is described in the same way is the same in both songs. -/
theorem Consists.agree {d d' : Document} {source : σ} {song song' : Song}
    (hstructure : sectionAt d' "structure" = sectionAt d "structure") (h : Consists d source song)
    (h' : Consists d' source song') :
    (sectionAt d' "harmony" = sectionAt d "harmony" → song'.harmony = song.harmony) ∧
      ∃ entries entries', itemsAt d "tracks" = .ok entries ∧ itemsAt d' "tracks" = .ok entries' ∧
        ∀ (i : Nat) (entry : Document), entries[i]? = some entry → entries'[i]? = some entry →
          ∃ track, song.tracks[i]? = some track ∧ song'.tracks[i]? = some track := by
  have hframe : song'.frame = song.frame := by
    have := h'.frame
    rw [hstructure, h.frame] at this
    exact (Except.ok.inj this).symm
  constructor
  · intro hharmony
    obtain ⟨harmonySection, engine, hsection, hengine, hrender⟩ := h.harmony
    obtain ⟨harmonySection', engine', hsection', hengine', hrender'⟩ := h'.harmony
    cases Except.ok.inj (hsection.symm.trans (hharmony.symm.trans hsection'))
    cases Except.ok.inj (hengine.symm.trans hengine')
    rw [hframe, hrender] at hrender'
    exact (Except.ok.inj hrender').symm
  · obtain ⟨entries, hentries, htracks⟩ := h.track
    obtain ⟨entries', hentries', htracks'⟩ := h'.track
    refine ⟨entries, entries', hentries, hentries', fun i entry hentry hentry' => ?_⟩
    obtain ⟨track, hget, htrack⟩ := htracks i entry hentry
    obtain ⟨track', hget', htrack'⟩ := htracks' i entry hentry'
    rw [hframe, htrack] at htrack'
    cases htrack'
    exact ⟨track, hget, hget'⟩

end

/-- Two songs of the same structure, built from the same seed: if their harmonies are described in
the same way, the harmonies are equal, whatever the tracks are, and every track that is described in
the same way under the same number is the same in both, whatever else differs. -/
theorem parts_independent {d d' : Document} {seed : Option Int} {song song' : Song}
    (hstructure : sectionAt d' "structure" = sectionAt d "structure")
    (h : (build d seed).result = .ok song) (h' : (build d' seed).result = .ok song') :
    (sectionAt d' "harmony" = sectionAt d "harmony" → song'.harmony = song.harmony) ∧
      ∃ entries entries', itemsAt d "tracks" = .ok entries ∧ itemsAt d' "tracks" = .ok entries' ∧
        ∀ (i : Nat) (entry : Document), entries[i]? = some entry → entries'[i]? = some entry →
          ∃ track, song.tracks[i]? = some track ∧ song'.tracks[i]? = some track := by
  cases seed with
  | none =>
    simp only [build, Traced.result_bind, Traced.result_ofExcept] at h
    obtain ⟨_, -, h⟩ := Outcome.bind_eq_ok_iff.1 h
    cases h
  | some seed => exact (consists_of_buildFrom h).agree hstructure (consists_of_buildFrom h')

end

/-- A song of two ticks, and the same one with another track behind its own. -/
theorem parts_independent_appended :
    let _ := Machine.small
    let entry (text : String) : Document := .mapping [("patterns".toList, .text text.toList)]
    let document (tracks : List String) : Document := .mapping [
      ("structure".toList, .mapping [("bars".toList, .integer 1),
        ("beats_per_bar".toList, .integer 2), ("ticks_per_beat".toList, .integer 1)]),
      ("harmony".toList, .mapping [("chord_patterns".toList, .list [.text "C/1,F/1".toList])]),
      ("tracks".toList, .list (tracks.map entry))]
    ∃ song song', (build (document ["0/2"]) (some 7)).result = .ok song ∧
      (build (document ["0/2", "-/1,2/1"]) (some 7)).result = .ok song' ∧
      song'.harmony = song.harmony ∧
      ∃ track, song.tracks[0]? = some track ∧ song'.tracks[0]? = some track := by
  intro machine entry document
  let frame : Structure := ⟨2, 1, 127, by decide, by decide, by decide⟩
  let pattern : ChordPattern := ⟨"C/1,F/1".toList, none, none, by decide⟩
  let engine : HarmonyEngine := ⟨[pattern], [], true, 2, by simp⟩
  have hdrawless : pattern.Drawless := by
    have hread : pattern.tokens =
        .ok [⟨false, ['C'], ⟨['1'], 1⟩⟩, ⟨false, ['F'], ⟨['1'], 1⟩⟩] := by decide +kernel
    intro tokens htokens
    rw [hread] at htokens
    cases htokens
    decide
  -- The generators of the seeds are not evaluated: what is literal does not depend on them.
  have hrender : (engine.renderFrom frame ([] : List Nat)).result =
      .ok ⟨#[⟨some ⟨0, .major, 0, ['C']⟩, 1, 2⟩, ⟨some ⟨5, .major, 0, ['F']⟩, 1, 1⟩]⟩ := by
    decide +kernel
  have hharmony : ∀ seed, ∃ t, (engine.render frame seed).result = .ok t := fun seed =>
    ⟨_, (HarmonyEngine.result_renderFrom_of_drawless (show engine.patterns = [pattern] from rfl)
      hdrawless frame (Twister.ofSeed seed) []).trans hrender⟩
  have hliteral (text : String) (pattern : Pattern)
      (hexpand : Shorthand.expand text.toList = .ok text.toList)
      (hparse : Pattern.parse text.toList none [] 127 = .ok pattern)
      (hwrite : pattern.write = .ok text.toList) (index : Nat) (seed : Int) :
      ∃ track, (buildTrack frame index seed (entry text)).result = .ok track := by
    have hname : ∀ index, ∃ name, readName (entry text) index = .ok (.text name) :=
      fun _ => ⟨_, rfl⟩
    have hengine : ∀ name, readEngine (entry text) name =
        .ok (.literal ⟨[text.toList], none, by simp⟩) := fun _ => rfl
    have hwildcards : readWildcards (entry text) = .ok [] := rfl
    have htrack : ∀ name, ∃ t, readTrack (entry text) name pattern [] = .ok t := fun _ => ⟨_, rfl⟩
    exact exists_buildTrack_of_literal frame hname hengine rfl hwildcards hexpand hparse hwrite
      htrack index seed
  have hheld := hliteral "0/2" ⟨[⟨2, some 0, none, 127, false, by decide⟩], by simp⟩
    (by decide +kernel) (by decide +kernel) (by decide +kernel)
  have hlate := hliteral "-/1,2/1"
    ⟨[⟨1, none, none, 0, false, by decide⟩, ⟨1, some 2, none, 127, false, by decide⟩], by simp⟩
    (by decide +kernel) (by decide +kernel) (by decide +kernel)
  have hbuild (tracks : List String) (h : ∀ text ∈ tracks, ∀ index seed, ∃ track,
      (buildTrack frame index seed (entry text)).result = .ok track) :
      ∃ song, (build (document tracks) (some 7)).result = .ok song := by
    have hframe : sectionAt (document tracks) "structure" >>= readStructure = .ok frame := rfl
    have hengine : (readHarmony (.mapping [("chord_patterns".toList,
        .list [.text "C/1,F/1".toList])])).result = .ok engine := rfl
    refine exists_buildFrom hframe rfl hengine hharmony rfl (fun track htrack => ?_) _
    obtain ⟨text, htext, rfl⟩ := List.mem_map.1 htrack
    exact h text htext
  obtain ⟨song, hsong⟩ := hbuild ["0/2"] (by simpa using hheld)
  obtain ⟨song', hsong'⟩ := hbuild ["0/2", "-/1,2/1"] (by simpa using ⟨hheld, hlate⟩)
  have hstructure : sectionAt (document ["0/2", "-/1,2/1"]) "structure" =
      sectionAt (document ["0/2"]) "structure" := rfl
  obtain ⟨hharmonies, entries, entries', hentries, hentries', htracks⟩ :=
    parts_independent hstructure hsong hsong'
  cases hentries
  cases hentries'
  exact ⟨song, song', hsong, hsong', hharmonies rfl, htracks 0 _ rfl rfl⟩

end Song

end Songsmith
