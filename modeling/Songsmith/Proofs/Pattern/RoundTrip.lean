import Songsmith.Pattern.Printer
import Songsmith.Proofs.Outcome
import Songsmith.Proofs.Pattern.Tokens

/-!
# Written patterns

A pattern that the program builds, by reading patterns, putting them one after the other and giving
wildcards their pitches (`Pattern.Built`), is read again where it is written, entry by entry
(`Pattern.parse_write`). Not every entry is: one may hold a legato mark without sounding, or a
velocity above the greatest. Those that are read are of three kinds (`Entry.Readable`), which
joining and resolving keep (`Pattern.Built.readable`), and an entry of one of these kinds is read
again where it is written (`Entry.Readable.parse_of_write`).
-/

namespace Songsmith

namespace Entry

/-- The entries that can be read: plain pauses, and notes and declared wildcards that sound. A
wildcard is a single sign that is neither a hyphen nor a numeral. -/
inductive Readable (wildcards : Text) (maxVelocity : Int) : Entry → Prop
  | pause (ticks : Nat) (positive : 0 < ticks) :
      Readable wildcards maxVelocity (pause ticks positive)
  | note {ticks : Nat} {pitch velocity : Int} {legato : Bool} {positive : 0 < ticks} :
      0 < velocity → velocity ≤ maxVelocity →
      Readable wildcards maxVelocity ⟨ticks, some pitch, none, velocity, legato, positive⟩
  | wildcard {ticks : Nat} {c : Char} {velocity : Int} {legato : Bool} {positive : 0 < ticks} :
      Token.isSign c = true → c ≠ '-' → Text.isNumeral c = false → wildcards.contains c = true →
      0 < velocity → velocity ≤ maxVelocity →
      Readable wildcards maxVelocity ⟨ticks, none, some [c], velocity, legato, positive⟩

/-- The integers of the entry have few enough digits to be written. -/
def Short (e : Entry) : Prop :=
  ∀ n : Int, n = e.ticks ∨ e.pitch = some n ∨ n = e.velocity →
    (Nat.toDigits 10 n.natAbs).length ≤ Integer.digitLimit

section
variable {wildcards : Text} {maxVelocity : Int} {e : Entry}

/-! ## Entries that are read -/

/-- A velocity is between zero and the greatest one, which it is where none is stated. -/
theorem velocityOf_bounds {token : Text} {stated : Option Text} {velocity : Int}
    (hmax : 1 ≤ maxVelocity) (h : velocityOf maxVelocity token stated = .ok velocity) :
    0 ≤ velocity ∧ velocity ≤ maxVelocity ∧ (stated = none → velocity = maxVelocity) := by
  cases stated with
  | none =>
    cases h
    exact ⟨by omega, Int.le_refl _, fun _ => rfl⟩
  | some text =>
    obtain ⟨v, -, h⟩ := Outcome.bind_eq_ok_iff.1 h
    split at h
    · cases h
    · cases h
      exact ⟨by omega, by omega, fun hnone => by cases hnone⟩

/-- What a token that sounds is read as can be read from some token. -/
theorem readable_of_sounded {ticks : { n : Nat // 0 < n }} {velocity : Int} {legato : Bool}
    {token : Text} {value : Token.Value} (hsign : ∀ c, value = .sign c → Token.isSign c = true)
    (hpause : value ≠ .sign '-') (hpos : 0 < velocity) (hmax : velocity ≤ maxVelocity)
    (h : sounded ticks wildcards velocity legato token value = .ok e) :
    Readable wildcards maxVelocity e := by
  unfold sounded at h
  split at h
  · obtain ⟨pitch, -, rfl⟩ := Outcome.map_eq_ok_iff.1 h
    exact .note hpos hmax
  · rename_i c
    split at h
    · obtain ⟨pitch, -, rfl⟩ := Outcome.map_eq_ok_iff.1 h
      exact .note hpos hmax
    · rename_i hnumeral
      split at h
      · rename_i hdeclared
        cases h
        exact .wildcard (hsign c rfl) (fun hc => hpause (congrArg _ hc))
          (Bool.eq_false_iff.2 hnumeral) hdeclared hpos hmax
      · cases h

/-- An entry that is read is of one of the three kinds. -/
theorem readable_of_parse {ticksPerBeat : Option Int} {text : Text} (hmax : 1 ≤ maxVelocity)
    (h : parse ticksPerBeat wildcards maxVelocity text = .ok e) :
    Readable wildcards maxVelocity e := by
  unfold parse at h
  split at h
  · cases h
  · rename_i parts hparts
    obtain ⟨ticks, -, h⟩ := Outcome.bind_eq_ok_iff.1 h
    split at h
    · cases h
      exact .pause _ _
    · rename_i hpause
      obtain ⟨velocity, hvelocity, h⟩ := Outcome.bind_eq_ok_iff.1 h
      obtain ⟨hlow, hhigh, hdefault⟩ := velocityOf_bounds hmax hvelocity
      split at h
      · cases h
        exact .pause _ _
      · rename_i hzero
        have hpos : 0 < velocity := by
          cases hstated : parts.velocity with
          | none => rw [hdefault hstated]; omega
          | some text =>
            have : velocity ≠ 0 := fun h0 => hzero ⟨by rw [hstated]; rfl, h0⟩
            omega
        exact readable_of_sounded (Token.isSign_of_ofText? hparts) hpause hpos hhigh h

/-- Giving a wildcard its pitch makes it a note, and leaves other entries alone. -/
theorem Readable.assign {offsets : List (Text × Int)} {e' : Entry}
    (h : Readable wildcards maxVelocity e) (hassign : e.assign offsets = .ok e') :
    Readable wildcards maxVelocity e' := by
  cases h with
  | pause ticks positive =>
    cases hassign
    exact .pause ticks positive
  | note hpos hmax =>
    cases hassign
    exact .note hpos hmax
  | wildcard _ _ _ _ hpos hmax =>
    obtain ⟨pitch, -, rfl⟩ := Outcome.map_eq_ok_iff.1 hassign
    exact .note hpos hmax

/-! ## Entries that are written -/

/-- An entry with a value and a velocity is no pause. -/
theorem isPause_of_pos (hpos : 0 < e.velocity) (hvalue : e.pitch.isSome ∨ e.wildcard.isSome) :
    e.isPause = false := by
  have : ¬ e.velocity ≤ 0 := by omega
  rcases hvalue with h | h <;> simp [isPause, this, Option.isNone_eq_false_iff.2 h]

/-- A short value is written. -/
theorem Short.exists_valueText (h : e.Short) : ∃ text, e.valueText = .ok text := by
  unfold valueText
  split
  · exact ⟨_, rfl⟩
  · rename_i pitch _ hpitch
    exact ⟨_, Integer.write_eq_ok (h pitch (.inr (.inl hpitch)))⟩
  · exact ⟨_, rfl⟩

/-- A short velocity is written. -/
theorem Short.exists_velocitySuffix (h : e.Short) (maxVelocity : Int) :
    ∃ text, e.velocitySuffix maxVelocity = .ok text := by
  unfold velocitySuffix
  split
  · exact ⟨_, rfl⟩
  · rw [Integer.write_eq_ok (h _ (.inr (.inr rfl)))]
    exact ⟨_, rfl⟩

/-- An entry without too long integers is written. -/
theorem Short.exists_write (h : e.Short) : ∃ text, e.write maxVelocity = .ok text := by
  have hticks := Integer.write_eq_ok (h _ (.inl rfl))
  unfold write
  split
  · rw [hticks]
    exact ⟨_, rfl⟩
  · obtain ⟨value, hvalue⟩ := h.exists_valueText
    obtain ⟨suffix, hsuffix⟩ := h.exists_velocitySuffix maxVelocity
    rw [hvalue, hticks, hsuffix]
    exact ⟨_, rfl⟩

/-- A sounded entry is written as its value, its mark, its length and its velocity. -/
theorem write_inv {text : Text} (hsounded : e.isPause = false)
    (h : e.write maxVelocity = .ok text) : ∃ value suffix, e.valueText = .ok value ∧
      e.velocitySuffix maxVelocity = .ok suffix ∧
      Integer.read (Integer.digits e.ticks) = .ok ↑e.ticks ∧
      text = value ++ e.legatoMark ++ '/' :: Integer.digits e.ticks ++ suffix := by
  rw [write, if_neg (by rw [hsounded]; exact Bool.false_ne_true)] at h
  obtain ⟨value, hvalue, h⟩ := Outcome.bind_eq_ok_iff.1 h
  obtain ⟨length, hlength, h⟩ := Outcome.bind_eq_ok_iff.1 h
  obtain ⟨suffix, hsuffix, h⟩ := Outcome.bind_eq_ok_iff.1 h
  cases h
  obtain ⟨rfl, hshort⟩ := Integer.write_inv hlength
  exact ⟨value, suffix, hvalue, hsuffix, Integer.read_digits hshort, rfl⟩

/-- The velocity behind a written entry is read again, and is missing if it is the greatest. -/
theorem velocitySuffix_inv {suffix : Text} (hpos : 0 < e.velocity)
    (hmax : e.velocity ≤ maxVelocity) (h : e.velocitySuffix maxVelocity = .ok suffix) :
    ∃ stated, suffix = Token.marked ':' stated ∧ (∀ part ∈ stated, Token.IsInteger part) ∧
      (∀ token, velocityOf maxVelocity token stated = .ok e.velocity) ∧ Text.Solid suffix := by
  unfold velocitySuffix at h
  split at h
  · rename_i hgreatest
    cases h
    exact ⟨none, rfl, nofun, fun _ => congrArg _ hgreatest.symm, Text.solid_nil⟩
  · obtain ⟨digits, hdigits, rfl⟩ := Outcome.map_eq_ok_iff.1 h
    obtain ⟨rfl, hshort⟩ := Integer.write_inv hdigits
    refine ⟨some (Integer.digits e.velocity), rfl, ?_, fun token => ?_,
      .cons (by decide) (Integer.solid_digits _)⟩
    · rintro _ ⟨⟩
      exact Token.isInteger_digits _
    · refine Outcome.bind_eq_ok_iff.2 ⟨e.velocity, Integer.read_digits hshort, ?_⟩
      rw [if_neg (by omega)]

/-- A length is read from its digits. -/
theorem Length.read_digits {ticks : Nat} (positive : 0 < ticks)
    (h : Integer.read (Integer.digits ticks) = .ok ↑ticks) (token : Text) :
    Length.read none (some (Integer.digits ticks)) token = .ok ⟨ticks, positive⟩ := by
  have hticks : (0 : Int) < ticks := by omega
  simp only [Length.read, Length.ticks?, h, Except.toOption, dif_pos hticks, Int.toNat_natCast]

/-- The value of a written entry that sounds is cut off again and has the meaning it had. -/
theorem Readable.value {text : Text} (h : Readable wildcards maxVelocity e)
    (hsounded : e.isPause = false) (htext : e.valueText = .ok text) :
    ∃ value : Token.Value, value.Spells text ∧ Text.Solid text ∧ value ≠ .sign '-' ∧
      ∀ token,
        sounded ⟨e.ticks, e.ticks_pos⟩ wildcards e.velocity e.legato token value = .ok e := by
  cases h with
  | pause => cases hsounded
  | @note _ pitch =>
    obtain ⟨rfl, hshort⟩ := Integer.write_inv htext
    refine ⟨.number (Integer.digits pitch), .number (Token.isInteger_digits pitch),
      Integer.solid_digits pitch, fun hsign => (nomatch hsign), fun token => ?_⟩
    rw [sounded, Integer.read_digits hshort]
    rfl
  | @wildcard _ c _ _ _ hsign hhyphen hnumeral hdeclared =>
    cases htext
    refine ⟨.sign c, .sign hsign, .cons ?_ Text.solid_nil,
      fun hc => hhyphen (Token.Value.sign.inj hc), fun token => ?_⟩
    · simp only [Token.isSign, Bool.and_eq_true, Bool.not_eq_true', bne_iff_ne] at hsign
      exact ⟨hsign.1.1.1.1.1, hsign.2⟩
    · rw [sounded, if_neg (by rw [hnumeral]; exact Bool.false_ne_true), if_pos hdeclared]

/-- A text without blanks that spells parts is read as the entry of these parts. -/
theorem parse_eq {text : Text} {parts : Token} (hsolid : Text.Solid text)
    (hparts : parts.Spells text)
    (h : ofToken none wildcards maxVelocity text parts = .ok e) :
    parse none wildcards maxVelocity text = .ok e := by
  rw [parse, hsolid.trim_eq, Token.ofText?_eq_some_iff.2 hparts]
  exact h

/-- A value that is written with its length in ticks. -/
theorem spells_ticks {text : Text} {value : Token.Value} {stated : Option Text}
    (hvalue : value.Spells text) (legato : Bool) (ticks : Nat)
    (hstated : ∀ part ∈ stated, Token.IsInteger part) :
    Token.Spells ⟨value, legato, some (Integer.digits ticks), stated⟩
      (text ++ Token.legatoMark legato ++ '/' :: Integer.digits ticks ++
        Token.marked ':' stated) := by
  refine .parts hvalue ?_ hstated
  rintro _ ⟨⟩
  exact ⟨Integer.digits_natCast_ne_nil ticks, Text.unmarked_of_digits fun c hc =>
    Text.isDecimalDigit_of_isDigit (Integer.isDigit_of_mem_digits_natCast hc)⟩

/-- A written pause is read as the pause. -/
theorem parse_of_write_pause {ticks : Nat} {positive : 0 < ticks} {text : Text}
    (hwrite : (pause ticks positive).write maxVelocity = .ok text) :
    parse none wildcards maxVelocity text = .ok (pause ticks positive) ∧ text ≠ [] ∧
      Text.Solid text := by
  obtain ⟨length, hlength, rfl⟩ := Outcome.map_eq_ok_iff.1 hwrite
  obtain ⟨rfl, hshort⟩ := Integer.write_inv hlength
  have hsolid : Text.Solid ('-' :: '/' :: Integer.digits ticks) :=
    .cons (by decide) (.cons (by decide) (Integer.solid_digits _))
  have hparts : Token.Spells ⟨.sign '-', false, some (Integer.digits ticks), none⟩
      ('-' :: '/' :: Integer.digits ticks ++ []) :=
    spells_ticks (.sign (by decide)) false ticks nofun
  rw [List.append_nil] at hparts
  refine ⟨parse_eq hsolid hparts ?_, List.cons_ne_nil _ _, hsolid⟩
  rw [ofToken, Length.read_digits positive (Integer.read_digits hshort)]
  rfl

/-- A written entry that sounds is read as the entry. -/
theorem parse_of_write_sounded {text : Text} (h : Readable wildcards maxVelocity e)
    (hsounded : e.isPause = false) (hpos : 0 < e.velocity) (hmax : e.velocity ≤ maxVelocity)
    (hwrite : e.write maxVelocity = .ok text) :
    parse none wildcards maxVelocity text = .ok e ∧ text ≠ [] ∧ Text.Solid text := by
  obtain ⟨valueText, suffix, hvalueText, hsuffix, hlength, rfl⟩ := write_inv hsounded hwrite
  obtain ⟨value, hvalue, hvalueSolid, hhyphen, hmeaning⟩ := h.value hsounded hvalueText
  obtain ⟨stated, rfl, hstated, hvelocity, hsuffixSolid⟩ :=
    velocitySuffix_inv hpos hmax hsuffix
  have hmark : Text.Solid e.legatoMark := by
    unfold legatoMark
    split
    · exact .cons (by decide) Text.solid_nil
    · exact Text.solid_nil
  have hsolid := ((hvalueSolid.append hmark).append
    (.cons (by decide : Text.isBlankChar '/' = false ∧ '/' ≠ ',')
      (Integer.solid_digits e.ticks))).append hsuffixSolid
  refine ⟨parse_eq hsolid (spells_ticks hvalue e.legato e.ticks hstated) ?_, by simp, hsolid⟩
  rw [ofToken, Length.read_digits e.ticks_pos hlength]
  refine (if_neg hhyphen).trans ?_
  refine Outcome.bind_eq_ok_iff.2 ⟨e.velocity, hvelocity _, ?_⟩
  rw [if_neg (by omega)]
  exact hmeaning _

/-- An entry of one of the three kinds is read again where it is written, and its text has no blanks
and no commas. -/
theorem Readable.parse_of_write {text : Text} (h : Readable wildcards maxVelocity e)
    (hwrite : e.write maxVelocity = .ok text) :
    parse none wildcards maxVelocity text = .ok e ∧ text ≠ [] ∧ Text.Solid text := by
  have hreadable := h
  cases h with
  | pause ticks positive => exact parse_of_write_pause hwrite
  | note hpos hmax =>
    exact parse_of_write_sounded hreadable (isPause_of_pos hpos (.inl rfl)) hpos hmax hwrite
  | wildcard _ _ _ _ hpos hmax =>
    exact parse_of_write_sounded hreadable (isPause_of_pos hpos (.inr rfl)) hpos hmax hwrite

end

end Entry

namespace Pattern

section
variable {wildcards : Text} {maxVelocity : Int}

/-- The patterns that the program builds under the given wildcards and greatest velocity: they are
read, with lengths in ticks or in beats, put one after the other, and given pitches for their
wildcards. -/
inductive Built (wildcards : Text) (maxVelocity : Int) : Pattern → Prop
  | parse {text : Text} {ticksPerBeat : Option Int} {p : Pattern} :
      Pattern.parse text ticksPerBeat wildcards maxVelocity = .ok p → Built wildcards maxVelocity p
  | concat {patterns : List Pattern} {p : Pattern} :
      (∀ q ∈ patterns, Built wildcards maxVelocity q) → Pattern.concat patterns = .ok p →
      Built wildcards maxVelocity p
  | assign {q p : Pattern} {offsets : List (Text × Int)} : Built wildcards maxVelocity q →
      q.assign offsets = .ok p → Built wildcards maxVelocity p

/-- A pattern of entries has these entries. -/
theorem entries_of_ofEntries {entries : List Entry} {p : Pattern}
    (h : ofEntries entries = .ok p) : p.entries = entries := by
  unfold ofEntries at h
  split at h
  · cases h
  · cases h
    rfl

/-- Every entry of a pattern that is built can be read. -/
theorem Built.readable {p : Pattern} (h : Built wildcards maxVelocity p) (hmax : 1 ≤ maxVelocity) :
    ∀ e ∈ p.entries, Entry.Readable wildcards maxVelocity e := by
  induction h with
  | parse h =>
    unfold Pattern.parse at h
    split at h
    · cases h
    · obtain ⟨entries, hentries, h⟩ := Outcome.bind_eq_ok_iff.1 h
      rw [entries_of_ofEntries h]
      intro e he
      obtain ⟨text, -, htext⟩ := Outcome.exists_rel_of_mem (Outcome.mapM_eq_ok_iff.1 hentries) he
      exact Entry.readable_of_parse hmax htext
  | concat _ h ih =>
    rw [entries_of_ofEntries h]
    intro e he
    obtain ⟨q, hq, he⟩ := List.mem_flatMap.1 he
    exact ih q hq e he
  | assign _ h ih =>
    obtain ⟨entries, hentries, h⟩ := Outcome.bind_eq_ok_iff.1 h
    rw [entries_of_ofEntries h]
    intro e he
    obtain ⟨e', he', hassign⟩ :=
      Outcome.exists_rel_of_mem (Outcome.mapM_eq_ok_iff.1 hentries) he
    exact (ih e' he').assign hassign

/-- A pattern without too long integers is written. -/
theorem exists_write {p : Pattern} (h : ∀ e ∈ p.entries, e.Short) :
    ∃ text, p.write maxVelocity = .ok text := by
  obtain ⟨texts, htexts⟩ := Outcome.exists_mapM_eq_ok fun e he => (h e he).exists_write
  exact ⟨Text.commaJoin texts, Outcome.map_eq_ok_iff.2 ⟨texts, htexts, rfl⟩⟩

/-- What is written of entries that can be read is read again, with the lengths in ticks. -/
theorem parse_of_write {p : Pattern} {text : Text}
    (hreadable : ∀ e ∈ p.entries, Entry.Readable wildcards maxVelocity e)
    (hwrite : p.write maxVelocity = .ok text) :
    Pattern.parse text none wildcards maxVelocity = .ok p := by
  obtain ⟨texts, htexts, rfl⟩ := Outcome.map_eq_ok_iff.1 hwrite
  have hall := Outcome.mapM_eq_ok_iff.1 htexts
  have hread : List.Forall₂ (fun e text => Entry.parse none wildcards maxVelocity text = .ok e ∧
      text ≠ [] ∧ Text.Solid text) p.entries texts := by
    refine List.forall₂_iff_zip.2 ⟨hall.length_eq, fun hmem => ?_⟩
    exact (hreadable _ (List.of_mem_zip hmem).1).parse_of_write (List.forall₂_zip hall hmem)
  have htexts_ne : texts ≠ [] := by
    rintro rfl
    exact p.nonempty (List.forall₂_nil_right_iff.1 hall)
  have hcomma : ∀ text ∈ texts, ',' ∉ text := by
    intro text htext
    obtain ⟨_, -, -, -, hsolid⟩ := Outcome.exists_rel_of_mem hread htext
    exact hsolid.comma_not_mem
  have hsplit : (Text.commaJoin texts).splitOn ',' = texts :=
    List.splitOn_intercalate ',' hcomma htexts_ne
  have hblank : Text.isBlank (Text.commaJoin texts) = false := by
    obtain ⟨text, htext⟩ := List.exists_mem_of_ne_nil texts htexts_ne
    obtain ⟨_, -, -, hne, hsolid⟩ := Outcome.exists_rel_of_mem hread htext
    obtain ⟨c, hc⟩ := List.exists_mem_of_ne_nil text hne
    have hmem := (Text.of_mem_splitOn (by rwa [hsplit])).2 hc
    exact List.all_eq_false.2 ⟨c, hmem, by rw [(hsolid c hc).1]; exact Bool.false_ne_true⟩
  rw [parse, if_neg (by rw [hblank]; exact Bool.false_ne_true), hsplit]
  refine Outcome.bind_eq_ok_iff.2 ⟨p.entries, Outcome.mapM_eq_ok_iff.2 ?_, dif_neg p.nonempty⟩
  exact (hread.imp fun _ _ h => h.1).flip

/-- A pattern that is built is written if none of its integers is too long, and is read again
wherever it is written. -/
theorem parse_write {p : Pattern} (hmax : 1 ≤ maxVelocity)
    (hbuilt : Built wildcards maxVelocity p) :
    ((∀ e ∈ p.entries, e.Short) → ∃ text, p.write maxVelocity = .ok text) ∧
      ∀ text, p.write maxVelocity = .ok text →
        Pattern.parse text none wildcards maxVelocity = .ok p := by
  refine ⟨exists_write, fun text hwrite => ?_⟩
  exact parse_of_write (hbuilt.readable hmax) hwrite

/-- A pattern in beats behind the same one with its wildcard resolved, written in ticks. -/
theorem parse_write_joined :
    ∃ p text, Built ['#'] 127 p ∧ p.write 127 = .ok text ∧
      text = "0~/4,7/8:90,-/2,0~/4,#/8:90,-/2".toList ∧
      Pattern.parse text none ['#'] 127 = .ok p := by
  have hread : Built ['#'] 127 ⟨[⟨4, some 0, none, 127, true, by decide⟩,
      ⟨8, none, some ['#'], 90, false, by decide⟩, ⟨2, none, none, 0, false, by decide⟩],
      by simp⟩ :=
    .parse (show Pattern.parse "0~, #/2:90, -/.5".toList (some 4) ['#'] 127 = _ by decide +kernel)
  have hresolved : Built ['#'] 127 ⟨[⟨4, some 0, none, 127, true, by decide⟩,
      ⟨8, some 7, none, 90, false, by decide⟩, ⟨2, none, none, 0, false, by decide⟩], by simp⟩ :=
    .assign hread (show Pattern.assign [(['#'], 7)] _ = _ from rfl)
  have hjoined : Built ['#'] 127 ⟨[⟨4, some 0, none, 127, true, by decide⟩,
      ⟨8, some 7, none, 90, false, by decide⟩, ⟨2, none, none, 0, false, by decide⟩,
      ⟨4, some 0, none, 127, true, by decide⟩, ⟨8, none, some ['#'], 90, false, by decide⟩,
      ⟨2, none, none, 0, false, by decide⟩], by simp⟩ :=
    .concat (List.forall_mem_cons.2 ⟨hresolved, List.forall_mem_singleton.2 hread⟩) rfl
  refine ⟨_, _, hjoined, ?_, rfl, (parse_write (by decide) hjoined).2 _ ?_⟩
  · decide +kernel
  · decide +kernel

end

end Pattern

end Songsmith
