import Songsmith.Proofs.Pattern.Counting
import Songsmith.Proofs.Pattern.Expansion
import Songsmith.Track.Engine

/-!
# The length of layouts

Every token of a layout stands for a part of one and the same length (`Layout.generate_exact`). A
part that is made is a sequence of fragments of its group which fill the length exactly
(`Layout.attempt_inv`), whatever is drawn and however often it is begun; a token that comes again
takes a part that was made in this way (`Layout.layTokens_inv`). A pause is written with the length
of a part. Read with the lengths in ticks, the parts last as long together as their number says.
-/

namespace Songsmith

/-- The text is a part for a token: a pause, or fragments of the group of the token, one after the
other, that are exactly as long as a part. -/
inductive PartRule.Fits (rule : PartRule) : LayoutToken → Text → Prop
  | pause {text : Text} : Layout.pauseText rule.ticks rule.ticksPerBeat = .ok text →
      Fits rule .pause text
  | part {group digit : Char} {g : FragmentGroup} {fragments : List Text} :
      rule.groups.find? group = some g → (∀ f ∈ fragments, f ∈ g.fragments) →
      Length.Lasts rule.ticksPerBeat (Text.commaJoin fragments) rule.ticks →
      Fits rule (.part group digit) (Text.commaJoin fragments)

/-- The text stands for a token as it is written in a layout. -/
def PartRule.FitsText (rule : PartRule) (token text : Text) : Prop :=
  ∃ t, LayoutToken.read token = .ok t ∧ rule.Fits t text

namespace Layout

section
variable {σ : Type} [Source σ] {rule : PartRule}

/-- The candidates are the fragments of the group, each with the length that is counted for it. -/
theorem mem_candidates {ticksPerBeat : Option Int} {g : FragmentGroup} {c : Candidate} :
    c ∈ candidates ticksPerBeat g ↔
      c.text ∈ g.fragments ∧ c.ticks = Length.countTicks c.text ticksPerBeat := by
  rw [candidates, List.mem_map]
  constructor
  · rintro ⟨text, htext, rfl⟩
    exact ⟨htext, rfl⟩
  · rintro ⟨htext, hticks⟩
    exact ⟨c.text, htext, by rw [← hticks]⟩

/-- Fragments that are drawn until a length is filled are as long as that together. -/
theorem attempt_inv {g : FragmentGroup} {ticksPerBeat : Option Int}
    {nonempty : candidates ticksPerBeat g ≠ []} {remaining : Nat} {drawn : List Text} {source : σ}
    {text : Text}
    (h : (attempt (candidates ticksPerBeat g) nonempty remaining drawn source).1 =
      .ok (some text)) :
    ∃ fragments lengths, (∀ f ∈ fragments, f ∈ g.fragments) ∧ fragments ≠ [] ∧
      List.Forall₂ (Length.Lasts ticksPerBeat) fragments lengths ∧
      Cycle.total id lengths = remaining ∧ text = Text.commaJoin (drawn.reverse ++ fragments) := by
  induction remaining using Nat.strongRecOn generalizing drawn source with
  | ind remaining ih =>
    rw [attempt] at h
    have hmem := Source.pick_mem source (candidates ticksPerBeat g) nonempty
    generalize Source.pick source (candidates ticksPerBeat g) nonempty = picked at h hmem
    obtain ⟨c, source⟩ := picked
    obtain ⟨hc, hticks⟩ := mem_candidates.1 hmem
    simp only at h hc hticks
    split at h
    · cases h
    · rename_i n hpos hcount
      have hlasts : Length.Lasts ticksPerBeat c.text n :=
        Outcome.map_eq_ok_iff.2 ⟨⟨n, hpos⟩, hticks.symm.trans hcount, rfl⟩
      split at h
      · rename_i hfull
        cases h
        refine ⟨[c.text], [n], ?_, List.cons_ne_nil _ _, .cons hlasts .nil, ?_, ?_⟩
        · rintro f (_ | ⟨_, _ | _⟩)
          exact hc
        · exact hfull
        · rw [List.reverse_cons]
      · split at h
        · rename_i hlt
          obtain ⟨fragments, lengths, hmem, -, hlengths, htotal, rfl⟩ :=
            ih (remaining - n) (by omega) h
          refine ⟨c.text :: fragments, n :: lengths, ?_, List.cons_ne_nil _ _,
            .cons hlasts hlengths, ?_, ?_⟩
          · exact List.forall_mem_cons.2 ⟨hc, hmem⟩
          · rw [Cycle.total_cons, htotal, id]
            omega
          · rw [List.reverse_cons, List.append_assoc, List.singleton_append]
        · cases h

section
variable {group : Char} {g : FragmentGroup} {nonempty : candidates rule.ticksPerBeat g ≠ []}
  {text : Text}

/-- A part that fragments fill fits every token of its group, however often it is begun. -/
theorem fits_of_fillWithin (hg : rule.groups.find? group = some g) {tries : Nat} {source : σ}
    (h : (fillWithin rule group (candidates rule.ticksPerBeat g) nonempty tries source).1 =
      .ok text) (digit : Char) : rule.Fits (.part group digit) text := by
  induction tries generalizing source with
  | zero => cases h
  | succ tries ih =>
    rw [fillWithin] at h
    split at h
    · cases h
    · rename_i text' source' hattempt
      cases h
      obtain ⟨fragments, lengths, hmem, hne, hlengths, htotal, rfl⟩ :=
        attempt_inv (congrArg Prod.fst hattempt)
      refine .part hg hmem ?_
      rw [← htotal]
      exact Length.lasts_commaJoin hne hlengths
    · exact ih h

/-- A variation fits, however many are made before it. -/
theorem fits_of_varyWithin (hg : rule.groups.find? group = some g) {digit : Char}
    {taken : List Text} {tries : Nat} {source : σ}
    (h : (varyWithin rule group digit (candidates rule.ticksPerBeat g) nonempty taken tries
      source).1 = .ok text) : rule.Fits (.part group digit) text := by
  induction tries generalizing source with
  | zero => cases h
  | succ tries ih =>
    rw [varyWithin] at h
    split at h
    · cases h
    · rename_i hfill
      split at h
      · exact ih h
      · cases h
        exact fits_of_fillWithin hg (congrArg Prod.fst hfill) digit

end

/-- A part that is made fits its token. -/
theorem fits_of_makePart {made : List Part} {group digit : Char} {source : σ} {text : Text}
    (h : (makePart rule made group digit source).1 = .ok text) :
    rule.Fits (.part group digit) text := by
  unfold makePart at h
  split at h
  · cases h
  · rename_i hg
    simp only at h
    split at h
    · exact fits_of_fillWithin hg h digit
    · exact fits_of_varyWithin hg h

/-- The texts of tokens fit them, if the parts made before do. -/
theorem layTokens_inv {made : List Part} {done tokens texts : List Text} {source : σ}
    (hmade : ∀ p ∈ made, rule.Fits (.part p.group p.digit) p.text)
    (h : (layTokens rule made done tokens source).result = .ok texts) :
    ∃ parts, texts = done.reverse ++ parts ∧ List.Forall₂ rule.FitsText tokens parts := by
  induction tokens generalizing made done source with
  | nil =>
    cases h
    exact ⟨[], (List.append_nil _).symm, .nil⟩
  | cons token tokens ih =>
    have hcons : ∀ {text : Text}, rule.FitsText token text →
        (∃ parts, texts = (text :: done).reverse ++ parts ∧
          List.Forall₂ rule.FitsText tokens parts) →
        ∃ parts, texts = done.reverse ++ parts ∧
          List.Forall₂ rule.FitsText (token :: tokens) parts := by
      rintro text htext ⟨parts, rfl, hparts⟩
      refine ⟨text :: parts, ?_, .cons htext hparts⟩
      rw [List.reverse_cons, List.append_assoc, List.singleton_append]
    rw [layTokens] at h
    split at h
    · cases h
    · rename_i hread
      split at h
      · cases h
      · rename_i text htext
        exact hcons ⟨_, hread, .pause htext⟩ (ih hmade h)
    · rename_i group digit hread
      split at h
      · rename_i p hp
        obtain ⟨hkey, hmem⟩ : (p.group = group ∧ p.digit = digit) ∧ p ∈ made := by
          have := List.find?_some hp
          simp only [Bool.and_eq_true, beq_iff_eq] at this
          exact ⟨this, List.mem_of_find?_eq_some hp⟩
        refine hcons ⟨_, hread, ?_⟩ (ih hmade h)
        rw [← hkey.1, ← hkey.2]
        exact hmade p hmem
      · split at h
        · cases h
        · rename_i text source' hpart
          have hfits := fits_of_makePart (congrArg Prod.fst hpart)
          refine hcons ⟨_, hread, hfits⟩ (ih ?_ h)
          intro p hp
          rcases List.mem_append.1 hp with hp | hp
          · exact hmade p hp
          · obtain rfl := List.mem_singleton.1 hp
            exact hfits

/-- The texts of a layout fit the tokens that it is expanded to. -/
theorem generate_inv [Machine] {layout : Text} {source : σ} {parts : List Text}
    (h : (generate rule layout source).result = .ok parts) :
    ∃ expansion, Shorthand.expand layout = .ok expansion ∧
      List.Forall₂ rule.FitsText (expansion.splitOn ',') parts := by
  unfold generate at h
  split at h
  · cases h
  · rename_i tokens htokens
    obtain ⟨hexpand, hsplit⟩ := Shorthand.splitOn_expand htokens
    have hmade : ∀ p ∈ ([] : List Part), rule.Fits (.part p.group p.digit) p.text := nofun
    obtain ⟨parts, rfl, hfits⟩ := layTokens_inv hmade h
    exact ⟨_, hexpand, by rwa [hsplit]⟩

/-! ## Lengths in ticks -/

/-- A pause in ticks is as long as it is written. -/
theorem lasts_pauseText {ticks : Nat} {text : Text} (positive : 0 < ticks)
    (h : pauseText ticks none = .ok text) : Length.Lasts none text ticks := by
  obtain ⟨digits, hdigits, rfl⟩ := Outcome.map_eq_ok_iff.1 h
  let p : Pattern := ⟨[Entry.pause ticks positive], List.cons_ne_nil _ _⟩
  have hwrite : p.write 1 = .ok ('-' :: '/' :: digits) := by
    refine Outcome.map_eq_ok_iff.2 ⟨['-' :: '/' :: digits], ?_, List.intercalate_singleton⟩
    exact Outcome.mapM_eq_ok_iff.2 (.cons (Outcome.map_eq_ok_iff.2 ⟨digits, hdigits, rfl⟩) .nil)
  have hreadable : ∀ e ∈ p.entries, Entry.Readable [] 1 e := by
    intro e he
    obtain rfl := List.mem_singleton.1 he
    exact .pause ticks positive
  exact Length.lasts_iff.2 (Pattern.addUp_of_parse (Pattern.parse_of_write hreadable hwrite))

/-- The longest pause in ticks that can be written. -/
def longestPause : Text :=
  '-' :: '/' :: Integer.digits ((10 ^ Integer.digitLimit - 1 : Nat) : Int)

/-- It is one tick shorter than a length that cannot be written. -/
theorem lasts_longestPause : Length.Lasts none longestPause (10 ^ Integer.digitLimit - 1) := by
  have hpositive := Integer.two_lt_limit
  refine lasts_pauseText (by omega) ?_
  rw [pauseText, Integer.write_natCast (by omega)]
  rfl

/-- Where lengths are in ticks, the text for a token lasts as long as a part. -/
theorem lasts_of_fitsText {token text : Text} (positive : 0 < rule.ticks)
    (hunit : rule.ticksPerBeat = none) (h : rule.FitsText token text) :
    Length.Lasts none text rule.ticks := by
  obtain ⟨t, -, hfits⟩ := h
  cases hfits with
  | pause htext => exact lasts_pauseText positive (hunit ▸ htext)
  | part _ _ hlasts => exact hunit ▸ hlasts

end

end Layout

/-- A track that is rendered is the text of its layout, read as a pattern. -/
theorem FragmentTrack.renderFrom_inv {σ : Type} [Machine] [Source σ] {track : FragmentTrack}
    {song : Structure} {source : σ} {wildcards : Text} {p : Pattern}
    (h : (track.renderFrom song source wildcards).result = .ok p) :
    ∃ text, (Layout.generate track.rule track.layout source).text = .ok text ∧
      Pattern.parse text track.rule.ticksPerBeat wildcards song.maxVelocity = .ok p := by
  simp only [renderFrom, Traced.result_bind, Traced.result_ofExcept] at h
  obtain ⟨-, -, h⟩ := Outcome.bind_eq_ok_iff.1 h
  exact Outcome.bind_eq_ok_iff.1 h

/-- The parts of a layout fit its tokens. Where lengths are in ticks, they are as long together as
the number of tokens says, and so is the pattern that they are read as. -/
theorem Layout.generate_exact {σ : Type} [Machine] [Source σ] {rule : PartRule}
    {layout text : Text} {source : σ} (positive : 0 < rule.ticks)
    (h : (generate rule layout source).text = .ok text) :
    ∃ expansion parts, Shorthand.expand layout = .ok expansion ∧ text = Text.commaJoin parts ∧
      List.Forall₂ rule.FitsText (expansion.splitOn ',') parts ∧
      (rule.ticksPerBeat = none →
        Length.Lasts none text ((expansion.splitOn ',').length * rule.ticks) ∧
          ∀ (song : Structure) (wildcards : Text) (p : Pattern),
            ((⟨layout, rule⟩ : FragmentTrack).renderFrom song source wildcards).result = .ok p →
            p.ticks = (expansion.splitOn ',').length * rule.ticks) := by
  obtain ⟨parts, hparts, rfl⟩ := Outcome.map_eq_ok_iff.1 h
  obtain ⟨expansion, hexpand, hfits⟩ := generate_inv hparts
  refine ⟨expansion, parts, hexpand, rfl, hfits, fun hunit => ?_⟩
  have hne : parts ≠ [] := by
    rintro rfl
    exact List.splitOn_ne_nil _ _ (List.forall₂_nil_right_iff.1 hfits)
  have hpart : ∀ part ∈ parts, Length.Lasts none part rule.ticks := by
    intro part hpart
    obtain ⟨token, -, hfits⟩ := Outcome.exists_rel_of_mem hfits hpart
    exact lasts_of_fitsText positive hunit hfits
  have hlasts := Length.lasts_commaJoin_of_forall hne hpart
  rw [← hfits.length_eq] at hlasts
  refine ⟨hlasts, fun song wildcards p hrender => ?_⟩
  obtain ⟨text', htext', hparse⟩ := FragmentTrack.renderFrom_inv hrender
  rw [h] at htext'
  cases htext'
  rw [hunit] at hparse
  have hticks : Length.Lasts none (Text.commaJoin parts) p.ticks :=
    Length.lasts_iff.2 (Pattern.addUp_of_parse hparse)
  exact Except.ok.inj (hticks.symm.trans hlasts)

/-- A part that is begun again because a fragment goes past its end, and a variation that is made
again because it is the part that is there already. -/
theorem Layout.generate_exact_retried :
    let _ := Machine.small
    (generate ⟨⟨[⟨'A', ["0/3".toList, ['-']], by simp⟩]⟩, 4, true, none⟩ "(A1,-)*2, A2".toList
        [0, 0, 0, 1, 0, 1, 1, 0]).text = .ok "0/3,-,-/4,0/3,-,-/4,-,0/3".toList ∧
      Length.Lasts none "0/3,-,-/4,0/3,-,-/4,-,0/3".toList 20 ∧
      ∃ p, ((⟨"(A1,-)*2, A2".toList, ⟨⟨[⟨'A', ["0/3".toList, ['-']], by simp⟩]⟩, 4, true, none⟩⟩ :
        FragmentTrack).renderFrom ⟨20, 4, 127, by decide, by decide, by decide⟩
          [0, 0, 0, 1, 0, 1, 1, 0] []).result = .ok p ∧ p.ticks = 20 := by
  intro machine
  have htext : (generate ⟨⟨[⟨'A', ["0/3".toList, ['-']], by simp⟩]⟩, 4, true, none⟩
      "(A1,-)*2, A2".toList [0, 0, 0, 1, 0, 1, 1, 0]).text =
        .ok "0/3,-,-/4,0/3,-,-/4,-,0/3".toList := by decide +kernel
  have hrender : ((⟨"(A1,-)*2, A2".toList,
      ⟨⟨[⟨'A', ["0/3".toList, ['-']], by simp⟩]⟩, 4, true, none⟩⟩ : FragmentTrack).renderFrom
        ⟨20, 4, 127, by decide, by decide, by decide⟩ [0, 0, 0, 1, 0, 1, 1, 0] []).result =
      .ok ⟨[⟨3, some 0, none, 127, false, by decide⟩, .pause 1 (by decide), .pause 4 (by decide),
        ⟨3, some 0, none, 127, false, by decide⟩, .pause 1 (by decide), .pause 4 (by decide),
        .pause 1 (by decide), ⟨3, some 0, none, 127, false, by decide⟩], by simp⟩ := by
    decide +kernel
  obtain ⟨expansion, parts, hexpand, -, -, hexact⟩ := generate_exact (by decide) htext
  obtain rfl : "A1,-,A1,-,A2".toList = expansion :=
    Except.ok.inj ((show Shorthand.expand "(A1,-)*2, A2".toList = _ by decide +kernel).symm.trans
      hexpand)
  obtain ⟨hlasts, hticks⟩ := hexact rfl
  exact ⟨htext, hlasts, _, hrender, hticks _ _ _ hrender⟩

end Songsmith
