import Songsmith.Proofs.Pattern.Expansion
import Songsmith.Proofs.Pattern.RoundTrip
import Songsmith.Proofs.Tiling
import Songsmith.Track.Crescendo

/-!
# What a crescendo leaves alone

A crescendo is written with its new velocities and read again, in ticks instead of in the units of
its parts. Nothing but velocities changes on the way (`CrescendoTrack.render_shaped`): the entries
that are read are those of the frame and the repeated body, one for one and shaped
(`Entry.Shaped`). Whatever integer the curve gives is settled between silence and the greatest
velocity, and above silence where the curve starts from one or more (`CrescendoTrack.settled`). An
entry that is settled at silence is written as a pause, which is why it is read as one.
-/

namespace Songsmith

/-- What shaping makes of an entry: a pause stays as it is, and a sounded entry gets another
velocity that is not zero, or becomes a pause if the curve may reach silence. -/
inductive Entry.Shaped (maxVelocity : Int) (audible : Bool) : Entry → Entry → Prop
  | pause {e : Entry} : e.isPause = true → Shaped maxVelocity audible e e
  | sounded {e : Entry} {velocity : Int} : e.isPause = false → 1 ≤ velocity →
      velocity ≤ maxVelocity → Shaped maxVelocity audible e { e with velocity := velocity }
  | silenced {e : Entry} : e.isPause = false → audible = false →
      Shaped maxVelocity audible e (Entry.pause e.ticks e.ticks_pos)

/-- Shaping does not change lengths. -/
theorem Entry.Shaped.ticks_eq {maxVelocity : Int} {audible : Bool} {e e' : Entry}
    (h : Shaped maxVelocity audible e e') : e'.ticks = e.ticks := by
  cases h <;> rfl

namespace CrescendoTrack

/-- The entries of the frame and of the body between its two parts, as often as it fits there. -/
def unshaped (ticks : Nat) (before : Option Pattern) (body : Pattern) (behind : Option Pattern) :
    List Entry :=
  frameEntries before ++
    (List.replicate ((ticks - (frameTicks before + frameTicks behind)) / body.ticks)
      body.entries).flatten ++ frameEntries behind

/-- The pattern has the total length of the track, and its entries are those of the parts, shaped
one by one. -/
def Plays (track : CrescendoTrack) (song : Structure) (wildcards : Text) (p : Pattern) : Prop :=
  ∃ before body behind, readFrame song wildcards track.before = .ok before ∧
    readBody song wildcards track.body = .ok body ∧
    readFrame song wildcards track.behind = .ok behind ∧ p.ticks = track.ticks ∧
    List.Forall₂ (Entry.Shaped song.maxVelocity (track.minVelocity.atLeast 1))
      (unshaped track.ticks before body behind) p.entries

/-- The velocity that is made of the integer that the curve gives. -/
def settled (track : CrescendoTrack) (song : Structure) (n : Int) : Int :=
  max 0 (min (if n < 1 ∧ track.minVelocity.atLeast 1 then 1 else n) song.maxVelocity)

section
variable {track : CrescendoTrack} {song : Structure} {wildcards : Text} {e : Entry}

/-! ## One entry -/

/-- A settled velocity is in range, and audible if the least velocity is. -/
theorem settled_bounds (track : CrescendoTrack) (song : Structure) (n : Int) :
    0 ≤ track.settled song n ∧ track.settled song n ≤ song.maxVelocity ∧
      (track.minVelocity.atLeast 1 = true → 1 ≤ track.settled song n) := by
  have hmax := song.maxVelocity_pos
  unfold settled
  refine ⟨by omega, by omega, fun haudible => ?_⟩
  rw [haudible]
  split
  · omega
  · rename_i hlow
    have : 1 ≤ n := by simpa using hlow
    omega

/-- Every shaped velocity is settled from some number that the curve gives. -/
theorem exists_settled {curve : Float} {velocity n : Int}
    (h : track.shapedVelocity song curve velocity = .ok n) : ∃ m, n = track.settled song m := by
  unfold shapedVelocity at h
  obtain ⟨x, -, h⟩ := Outcome.bind_eq_ok_iff.1 h
  obtain ⟨y, -, h⟩ := Outcome.bind_eq_ok_iff.1 h
  obtain ⟨m, -, h⟩ := Outcome.bind_eq_ok_iff.1 h
  cases h
  exact ⟨m, rfl⟩

/-- An entry that sounds can still be read with another velocity in range. -/
theorem readable_with_velocity {maxVelocity velocity : Int}
    (h : e.Readable wildcards maxVelocity) (hsounded : e.isPause = false) (hlow : 1 ≤ velocity)
    (hhigh : velocity ≤ maxVelocity) :
    Entry.Readable wildcards maxVelocity { e with velocity := velocity } := by
  cases h with
  | pause => cases hsounded
  | note => exact .note (by omega) hhigh
  | wildcard hsign hhyphen hnumeral hdeclared =>
    exact .wildcard hsign hhyphen hnumeral hdeclared (by omega) hhigh

/-- Whatever integer the curve gives, the entry is written as one that is shaped and can be read. -/
theorem exists_shaped_of_settled (track : CrescendoTrack) (n : Int)
    (h : e.Readable wildcards song.maxVelocity) (hsounded : e.isPause = false) :
    ∃ e', e.Shaped song.maxVelocity (track.minVelocity.atLeast 1) e' ∧
      e'.Readable wildcards song.maxVelocity ∧
      Entry.write song.maxVelocity { e with velocity := track.settled song n } =
        Entry.write song.maxVelocity e' := by
  obtain ⟨hlow, hhigh, haudible⟩ := settled_bounds track song n
  by_cases hpos : 1 ≤ track.settled song n
  · exact ⟨_, .sounded hsounded hpos hhigh, readable_with_velocity h hsounded hpos hhigh, rfl⟩
  · have hsilent : track.minVelocity.atLeast 1 = false :=
      Bool.eq_false_iff.2 fun h => hpos (haudible h)
    have hpause : Entry.isPause { e with velocity := track.settled song n } = true := by
      have hzero : track.settled song n ≤ 0 := by omega
      simp [Entry.isPause, hzero]
    refine ⟨_, .silenced hsounded hsilent, .pause _ _, ?_⟩
    rw [Entry.write, if_pos hpause]
    rfl

/-- The token of an entry is that of an entry that is shaped and can be read. -/
theorem exists_shaped_of_shapeToken {last tick : Nat} {token : Text}
    (h : e.Readable wildcards song.maxVelocity)
    (htoken : track.shapeToken song last (tick, e) = .ok token) :
    ∃ e', e.Shaped song.maxVelocity (track.minVelocity.atLeast 1) e' ∧
      e'.Readable wildcards song.maxVelocity ∧ e'.write song.maxVelocity = .ok token := by
  obtain ⟨shaped, hshape, hwrite⟩ := Outcome.bind_eq_ok_iff.1 htoken
  unfold shape at hshape
  split at hshape
  · rename_i hpause
    cases hshape
    exact ⟨e, .pause hpause, h, hwrite⟩
  · rename_i hsounded
    obtain ⟨position, -, hshape⟩ := Outcome.bind_eq_ok_iff.1 hshape
    obtain ⟨curve, -, hshape⟩ := Outcome.bind_eq_ok_iff.1 hshape
    obtain ⟨velocity, hvelocity, hshape⟩ := Outcome.bind_eq_ok_iff.1 hshape
    cases hshape
    obtain ⟨n, rfl⟩ := exists_settled hvelocity
    obtain ⟨e', hshaped, hreadable, heq⟩ :=
      exists_shaped_of_settled track n h (Bool.eq_false_iff.2 hsounded)
    exact ⟨e', hshaped, hreadable, heq ▸ hwrite⟩

/-! ## All entries -/

/-- The tokens that are written are the shaped entries, one by one, and can be read back. -/
theorem exists_shaped_of_mapM {last start : Nat} {entries : List Entry} {tokens : List Text}
    (h : ∀ e ∈ entries, e.Readable wildcards song.maxVelocity)
    (htokens : (Cycle.positions Entry.ticks start entries).mapM (track.shapeToken song last) =
      .ok tokens) :
    ∃ shaped, List.Forall₂ (Entry.Shaped song.maxVelocity (track.minVelocity.atLeast 1))
        entries shaped ∧ (∀ e ∈ shaped, e.Readable wildcards song.maxVelocity) ∧
      shaped.mapM (Entry.write song.maxVelocity) = .ok tokens := by
  rw [Outcome.mapM_eq_ok_iff] at htokens
  induction entries generalizing start tokens with
  | nil =>
    cases htokens
    exact ⟨[], .nil, nofun, rfl⟩
  | cons e entries ih =>
    rw [List.forall_mem_cons] at h
    obtain _ | ⟨htoken, htokens⟩ := htokens
    obtain ⟨e', hshaped, hreadable, hwrite⟩ := exists_shaped_of_shapeToken h.1 htoken
    obtain ⟨shaped, hall, hreadables, hwrites⟩ := ih h.2 htokens
    refine ⟨e' :: shaped, .cons hshaped hall, List.forall_mem_cons.2 ⟨hreadable, hreadables⟩, ?_⟩
    rw [Outcome.mapM_eq_ok_iff] at hwrites ⊢
    exact .cons hwrite hwrites

/-- Shaping does not change the length of the pattern. -/
theorem total_of_shaped {maxVelocity : Int} {audible : Bool} {entries shaped : List Entry}
    (h : List.Forall₂ (Entry.Shaped maxVelocity audible) entries shaped) :
    Cycle.total Entry.ticks shaped = Cycle.total Entry.ticks entries := by
  induction h with
  | nil => rfl
  | cons hshaped _ ih => rw [Cycle.total_cons, Cycle.total_cons, hshaped.ticks_eq, ih]

/-! ## The parts -/

/-- A pattern that is missing has no length. -/
theorem total_frameEntries (p : Option Pattern) :
    Cycle.total Entry.ticks (frameEntries p) = frameTicks p := by
  cases p <;> rfl

/-- The body is repeated only if that fills what the frame leaves. -/
theorem repetitions_inv {ticks frame body count : Nat}
    (h : repetitions ticks frame body = .ok count) :
    frame ≤ ticks ∧ count * body = ticks - frame ∧ count = (ticks - frame) / body := by
  unfold repetitions at h
  split at h
  · cases h
  · rename_i hfits
    split at h
    · rename_i hmultiple
      cases h
      exact ⟨Nat.not_lt.1 hfits, Nat.div_mul_cancel (Nat.dvd_of_mod_eq_zero hmultiple), rfl⟩
    · obtain ⟨_, -, h⟩ := Outcome.bind_eq_ok_iff.1 h
      obtain ⟨_, -, h⟩ := Outcome.bind_eq_ok_iff.1 h
      cases h

/-- The parts fill the total length. -/
theorem total_unshaped {ticks count : Nat} {before behind : Option Pattern} {body : Pattern}
    (h : repetitions ticks (frameTicks before + frameTicks behind) body.ticks = .ok count) :
    Cycle.total Entry.ticks (unshaped ticks before body behind) = ticks := by
  obtain ⟨hfits, hfill, rfl⟩ := repetitions_inv h
  have hbody : Cycle.total Entry.ticks body.entries = body.ticks := rfl
  rw [unshaped, Cycle.total_append, Cycle.total_append, Cycle.total_flatten_replicate,
    total_frameEntries, total_frameEntries, hbody, hfill]
  omega

/-- The entries of a pattern that is read can be written and read again. -/
theorem readable_of_readBody {source : PatternSource} {p : Pattern}
    (h : readBody song wildcards source = .ok p) :
    ∀ e ∈ p.entries, e.Readable wildcards song.maxVelocity :=
  (Pattern.Built.parse h).readable (by have := song.maxVelocity_pos; omega)

/-- So can those of the frame, of which there may be none. -/
theorem readable_of_readFrame {source : Option PatternSource} {p : Option Pattern}
    (h : readFrame song wildcards source = .ok p) :
    ∀ e ∈ frameEntries p, e.Readable wildcards song.maxVelocity := by
  unfold readFrame at h
  split at h
  · cases h
    nofun
  · split at h
    · cases h
      nofun
    · obtain ⟨p, hp, rfl⟩ := Outcome.map_eq_ok_iff.1 h
      exact readable_of_readBody hp

/-- So can those of all parts. -/
theorem readable_unshaped {before behind : Option Pattern} {body : Pattern}
    (hbefore : readFrame song wildcards track.before = .ok before)
    (hbody : readBody song wildcards track.body = .ok body)
    (hbehind : readFrame song wildcards track.behind = .ok behind) (ticks : Nat) :
    ∀ e ∈ unshaped ticks before body behind, e.Readable wildcards song.maxVelocity := by
  intro e he
  simp only [unshaped, List.mem_append, List.mem_flatten] at he
  rcases he with (he | ⟨entries, hentries, he⟩) | he
  · exact readable_of_readFrame hbefore e he
  · obtain rfl := List.eq_of_mem_replicate hentries
    exact readable_of_readBody hbody e he
  · exact readable_of_readFrame hbehind e he

/-! ## The whole pattern -/

/-- What is generated are the tokens of the entries of the parts. -/
theorem generate_inv [Machine] {text : Text}
    (h : (track.generate song wildcards).result = .ok text) :
    ∃ before body behind count tokens, readFrame song wildcards track.before = .ok before ∧
      readBody song wildcards track.body = .ok body ∧
      readFrame song wildcards track.behind = .ok behind ∧ 2 ≤ track.ticks ∧
      repetitions track.ticks (frameTicks before + frameTicks behind) body.ticks = .ok count ∧
      (Cycle.positions Entry.ticks 0 (unshaped track.ticks before body behind)).mapM
        (track.shapeToken song (track.ticks - 1)) = .ok tokens ∧ text = Text.commaJoin tokens := by
  simp only [generate, Traced.result_bind, Traced.result_ofExcept] at h
  obtain ⟨before, hbefore, h⟩ := Outcome.bind_eq_ok_iff.1 h
  obtain ⟨body, hbody, h⟩ := Outcome.bind_eq_ok_iff.1 h
  obtain ⟨behind, hbehind, h⟩ := Outcome.bind_eq_ok_iff.1 h
  obtain ⟨count, hcount, h⟩ := Outcome.bind_eq_ok_iff.1 h
  obtain ⟨_, -, h⟩ := Outcome.bind_eq_ok_iff.1 h
  obtain ⟨-, -, h⟩ := Outcome.bind_eq_ok_iff.1 h
  split at h
  · cases h
  · rename_i hlong
    simp only [Traced.result_bind, Traced.result_ofExcept, Traced.result_pure] at h
    obtain ⟨bodies, hbodies, h⟩ := Outcome.bind_eq_ok_iff.1 h
    obtain ⟨tokens, htokens, h⟩ := Outcome.bind_eq_ok_iff.1 h
    obtain ⟨-, -, h⟩ := Outcome.bind_eq_ok_iff.1 h
    cases h
    have hflatten : bodies.flatten = (List.replicate count body.entries).flatten := by
      rw [Cycle.eq_of_repeated hbodies, List.flatten_replicate_singleton]
    rw [hflatten, (repetitions_inv hcount).2.2] at htokens
    exact ⟨before, body, behind, count, tokens, hbefore, hbody, hbehind, Nat.not_lt.1 hlong, hcount,
      htokens, rfl⟩

/-- A track is generated and rendered with the same error, or what is generated is the text of the
pattern that is rendered, which has the total length and the entries of its parts, in order and
changed in nothing but velocities. -/
theorem render_shaped [Machine] (track : CrescendoTrack) (song : Structure) (wildcards : Text) :
    Outcome.Related
      (fun text p => p.write song.maxVelocity = .ok text ∧ track.Plays song wildcards p)
      (track.generate song wildcards).result (track.render song wildcards).result := by
  rw [render, Traced.result_bind]
  cases hgenerate : (track.generate song wildcards).result with
  | error e => exact .error e
  | ok text =>
    obtain ⟨before, body, behind, count, tokens, hbefore, hbody, hbehind, hlong, hcount, htokens,
      rfl⟩ := generate_inv hgenerate
    obtain ⟨shaped, hshaped, hreadable, hwrite⟩ := exists_shaped_of_mapM
      (readable_unshaped hbefore hbody hbehind track.ticks) htokens
    have htotal : Cycle.total Entry.ticks shaped = track.ticks :=
      (total_of_shaped hshaped).trans (total_unshaped hcount)
    have hne : shaped ≠ [] := by
      rintro rfl
      rw [Cycle.total_nil] at htotal
      omega
    let p : Pattern := ⟨shaped, hne⟩
    have htext : p.write song.maxVelocity = .ok (Text.commaJoin tokens) :=
      Outcome.map_eq_ok_iff.2 ⟨tokens, hwrite, rfl⟩
    have hparse : Pattern.parse (Text.commaJoin tokens) none wildcards song.maxVelocity = .ok p :=
      Pattern.parse_of_write hreadable htext
    have hrender : (Except.ok (Text.commaJoin tokens) >>= fun text =>
        (Traced.ofExcept (Pattern.parse text none wildcards song.maxVelocity)).result) = .ok p :=
      Outcome.bind_eq_ok_iff.2 ⟨_, rfl, hparse⟩
    rw [hrender]
    exact .ok ⟨htext, before, body, behind, hbefore, hbody, hbehind, htotal, hshaped⟩

end

end CrescendoTrack

end Songsmith
