import Songsmith.Proofs.Pattern.Failures

/-!
# The grammar of tokens

A documented token has a pause, an integer or a declared wildcard for its value, a positive length
and a velocity in range (`Token.Documented`). The reader checks one part after the other and leaves
as soon as the token is a pause, so that two kinds of tokens are read although a part of them does
not follow the grammar (`Token.Lapses`): a hyphen is a pause before its velocity is looked at, and
so is a token with velocity zero before its value is. `Pattern.parse_accepts_iff` says that these
are all. A text is read if each of its tokens is documented and has no integer at fault, or lapses;
and a token that is neither documented nor lapses is malformed, unless an integer is at fault.
-/

namespace Songsmith

namespace Token

/-! ## Documented tokens -/

/-- The value is a pause, an integer or a declared wildcard. -/
def Value.Declared (wildcards : Text) : Value → Prop
  | .number _ => True
  | .sign c => c = '-' ∨ c ∈ wildcards

/-- The numerals of the value can be read. -/
def Value.Legible (value : Value) : Prop :=
  ∀ text ∈ value.numerals?, ∀ cause, ¬ Numeral.Unreadable text cause

/-- The length of the token, if it states one, is a positive number of ticks. -/
def Measured (parts : Token) : Prop :=
  ∀ text ∈ parts.length, ∃ n, Integer.read text = .ok n ∧ 0 < n

/-- The velocity of the token, if it states one, lies between zero and the greatest one. -/
def InRange (maxVelocity : Int) (parts : Token) : Prop :=
  ∀ text ∈ parts.velocity, ∃ velocity, Integer.read text = .ok velocity ∧ 0 ≤ velocity ∧
    velocity ≤ maxVelocity

/-- The token states a velocity of zero. -/
def Silent (parts : Token) : Prop := ∃ text ∈ parts.velocity, Integer.read text = .ok 0

/-- The parts of a token are what they are documented to be. -/
structure Documented (wildcards : Text) (maxVelocity : Int) (parts : Token) : Prop where
  declared : parts.value.Declared wildcards
  measured : parts.Measured
  inRange : parts.InRange maxVelocity

/-- The token is a pause before one of its parts is looked at, and that part is not what it is
documented to be: the velocity of a hyphen, or a value with velocity zero. -/
inductive Lapses (wildcards : Text) (maxVelocity : Int) (parts : Token) : Prop
  | velocity : parts.Measured → parts.value = .sign '-' → ¬ parts.InRange maxVelocity →
      Lapses wildcards maxVelocity parts
  | value : parts.Measured → parts.InRange maxVelocity → parts.Silent →
      ¬ parts.value.Declared wildcards → Lapses wildcards maxVelocity parts

section
variable {maxVelocity : Int} {parts : Token} {text : Text}

/-- A token begins with its value. -/
theorem Spells.exists_value (h : parts.Spells text) : ∃ front, parts.value.Spells front := by
  obtain ⟨hvalue, -, -⟩ := h
  exact ⟨_, hvalue⟩

/-- A numeral that stands for a value is no decimal digit, and cannot be read. -/
theorem not_legible_sign {c : Char} (hsign : isSign c = true) (hnumeral : Text.isNumeral c = true) :
    ¬ (Value.sign c).Legible := by
  have hdigit := isDecimalDigit_of_isSign hsign
  have hbody : (Numeral.splitSign [c]).2 = [c] := by
    rw [Numeral.splitSign_of_isNumeral (by simpa using hnumeral)]
  intro hlegible
  refine hlegible [c] (numerals?_sign_eq_some_iff.2 ⟨hnumeral, rfl⟩) _ (.noDigit ?_ ?_)
  · rw [Numeral.digitCount, hbody, List.takeWhile_cons_of_neg (by simpa using hdigit)]
    exact Nat.zero_le _
  · rw [hbody]
    exact ⟨c, List.mem_singleton_self c, hdigit⟩

/-- With a velocity in range, only the pitch of a token that sounds can be at fault. -/
theorem exists_faulty_iff (hspells : parts.Spells text) (hrange : parts.InRange maxVelocity) :
    (∃ cause, parts.Faulty maxVelocity cause) ↔ ¬ parts.Silent ∧ ¬ parts.value.Legible := by
  constructor
  · rintro ⟨cause, h⟩
    cases h with
    | velocity hstated hcause =>
      obtain ⟨velocity, hread, -⟩ := hrange _ hstated
      have hwhole := (whole_of_ofText? (ofText?_eq_some_iff.2 hspells)).2 _ hstated
      exact absurd hcause ((Integer.exists_read_iff hwhole).1 ⟨velocity, hread⟩ cause)
    | range hstated hread hout =>
      obtain ⟨velocity, hread', hlow, hhigh⟩ := hrange _ hstated
      cases hread.symm.trans hread'
      omega
    | pitch hsounds htext hcause =>
      refine ⟨?_, fun hlegible => hlegible _ htext cause hcause⟩
      rintro ⟨stated, hstated, hzero⟩
      obtain ⟨velocity, hread, hpos, -⟩ := hsounds stated hstated
      cases hzero.symm.trans hread
      omega
  · rintro ⟨hsounds, hillegible⟩
    simp only [Value.Legible, not_forall, not_not] at hillegible
    obtain ⟨numerals, hnumerals, cause, hcause⟩ := hillegible
    refine ⟨cause, .pitch (fun stated hstated => ?_) hnumerals hcause⟩
    obtain ⟨velocity, hread, hlow, hhigh⟩ := hrange stated hstated
    have hne : velocity ≠ 0 := by
      rintro rfl
      exact hsounds ⟨stated, hstated, hread⟩
    exact ⟨velocity, hread, by omega, hhigh⟩

/-- A hyphen holds no numerals that could be unreadable. -/
theorem legible_hyphen : (Value.sign '-').Legible := by
  intro numerals hnumerals
  exact absurd (numerals?_sign_eq_some_iff.1 hnumerals).1 (by decide)

/-- What the checks let through is documented and has no integer at fault, or lapses. -/
theorem lets_through_iff {wildcards : Text} (hspells : parts.Spells text) :
    parts.Measured ∧ (parts.value = .sign '-' ∨ parts.InRange maxVelocity ∧
        (parts.Silent ∨ parts.value.Declared wildcards ∧ parts.value.Legible)) ↔
      parts.Documented wildcards maxVelocity ∧ (¬ ∃ cause, parts.Faulty maxVelocity cause) ∨
        parts.Lapses wildcards maxVelocity := by
  constructor
  · rintro ⟨hmeasured, hhyphen | ⟨hrange, h⟩⟩
    · by_cases hrange : parts.InRange maxVelocity
      · refine .inl ⟨⟨by rw [hhyphen]; exact .inl rfl, hmeasured, hrange⟩, ?_⟩
        rw [exists_faulty_iff hspells hrange, hhyphen]
        exact fun h => h.2 legible_hyphen
      · exact .inr (.velocity hmeasured hhyphen hrange)
    · by_cases hdeclared : parts.value.Declared wildcards
      · refine .inl ⟨⟨hdeclared, hmeasured, hrange⟩, ?_⟩
        rw [exists_faulty_iff hspells hrange]
        exact fun hfaulty => h.elim hfaulty.1 fun h => hfaulty.2 h.2
      · exact .inr (.value hmeasured hrange (h.resolve_right fun h => hdeclared h.1) hdeclared)
  · rintro (⟨⟨hdeclared, hmeasured, hrange⟩, hfaulty⟩ | hlapses)
    · rw [exists_faulty_iff hspells hrange, not_and_or, not_not, not_not] at hfaulty
      exact ⟨hmeasured, .inr ⟨hrange, hfaulty.imp_right fun h => ⟨hdeclared, h⟩⟩⟩
    · cases hlapses with
      | velocity hmeasured hhyphen => exact ⟨hmeasured, .inl hhyphen⟩
      | value hmeasured hrange hsilent => exact ⟨hmeasured, .inr ⟨hrange, .inl hsilent⟩⟩

end

end Token

/-! ## What each check lets through -/

namespace Length

/-- In ticks a length is an integer. -/
theorem ticks?_eq_some_iff {text : Text} {n : Int} :
    ticks? none (some text) = some n ↔ Integer.read text = .ok n := by
  rw [ticks?]
  cases Integer.read text <;> simp [Except.toOption]

/-- A length is read if it says a positive number of ticks. -/
theorem exists_read_iff (ticksPerBeat : Option Int) (length : Option Text) (token : Text) :
    (∃ ticks, read ticksPerBeat length token = .ok ticks) ↔
      ∃ n, ticks? ticksPerBeat length = some n ∧ 0 < n := by
  unfold read
  constructor
  · rintro ⟨ticks, h⟩
    split at h
    · cases h
    · rename_i n hn
      split at h
      · rename_i hpos
        exact ⟨n, hn, hpos⟩
      · cases h
  · rintro ⟨n, hn, hpos⟩
    rw [hn]
    exact ⟨_, dif_pos hpos⟩

/-- A length in ticks is read exactly if it measures something. -/
theorem exists_read_iff_measured (parts : Token) (token : Text) :
    (∃ ticks, read none parts.length token = .ok ticks) ↔ parts.Measured := by
  rw [exists_read_iff, Token.Measured]
  cases parts.length with
  | none =>
    refine iff_of_true ⟨1, rfl, Int.one_pos⟩ ?_
    rintro _ ⟨⟩
  | some text => simp only [Option.mem_some_iff, forall_eq', ticks?_eq_some_iff]

end Length

namespace Entry

section
variable {wildcards token : Text} {maxVelocity : Int} {parts : Token}

/-- A value that is no pause is sounded if it is declared and can be read. -/
theorem exists_sounded_iff {ticks : { n : Nat // 0 < n }} {velocity : Int} {legato : Bool}
    {value : Token.Value} {text : Text} (hspells : value.Spells text)
    (hhyphen : value ≠ .sign '-') :
    (∃ e, sounded ticks wildcards velocity legato token value = .ok e) ↔
      value.Declared wildcards ∧ value.Legible := by
  cases hspells with
  | number hinteger =>
    have hread := Integer.exists_read_iff hinteger.whole
    constructor
    · rintro ⟨e, h⟩
      obtain ⟨pitch, hpitch, -⟩ := Outcome.map_eq_ok_iff.1 h
      refine ⟨trivial, ?_⟩
      rintro _ ⟨⟩
      exact hread.1 ⟨pitch, hpitch⟩
    · rintro ⟨-, hlegible⟩
      obtain ⟨pitch, hpitch⟩ := hread.2 (hlegible _ rfl)
      exact ⟨_, Outcome.map_eq_ok_iff.2 ⟨pitch, hpitch, rfl⟩⟩
  | @sign c hsign =>
    cases hnumeral : Text.isNumeral c with
    | true =>
      -- such a value is read as a number, which fails
      have hillegible := Token.not_legible_sign hsign hnumeral
      have hwhole : Numeral.Whole [c] :=
        Numeral.whole_of_isNumeralText (by simp [Text.isNumeralText, hnumeral])
      refine iff_of_false ?_ fun h => hillegible h.2
      rintro ⟨e, h⟩
      rw [sounded, if_pos hnumeral] at h
      obtain ⟨pitch, hpitch, -⟩ := Outcome.map_eq_ok_iff.1 h
      refine hillegible fun numerals hnumerals => ?_
      obtain ⟨-, rfl⟩ := Token.numerals?_sign_eq_some_iff.1 hnumerals
      exact (Integer.exists_read_iff hwhole).1 ⟨pitch, hpitch⟩
    | false =>
      have hlegible : (Token.Value.sign c).Legible := by
        intro numerals hnumerals
        rw [(Token.numerals?_sign_eq_some_iff.1 hnumerals).1] at hnumeral
        cases hnumeral
      have hne : c ≠ '-' := fun hc => hhyphen (congrArg _ hc)
      rw [sounded, if_neg (by rw [hnumeral]; exact Bool.false_ne_true)]
      by_cases hmem : c ∈ wildcards <;>
        simp [Token.Value.Declared, hlegible, hne, hmem]

/-- A velocity is read exactly if it is in range. -/
theorem exists_velocityOf_iff :
    (∃ velocity, velocityOf maxVelocity token parts.velocity = .ok velocity) ↔
      parts.InRange maxVelocity := by
  unfold Token.InRange
  cases parts.velocity with
  | none => exact iff_of_true ⟨maxVelocity, rfl⟩ nofun
  | some text =>
    simp only [velocityOf_some_eq_ok_iff, Option.mem_some_iff, forall_eq']

/-- A token is silent exactly if its velocity is stated to be zero. -/
theorem silent_iff {velocity : Int}
    (h : velocityOf maxVelocity token parts.velocity = .ok velocity) :
    parts.Silent ↔ parts.velocity.isSome ∧ velocity = 0 := by
  unfold Token.Silent
  cases hstated : parts.velocity with
  | none => simp
  | some text =>
    rw [hstated] at h
    obtain ⟨hread, -⟩ := velocityOf_some_eq_ok_iff.1 h
    simp [hread]

/-- The entry of a token is found if the length is positive and the token is a pause before its
velocity or its value is looked at, or both are right. -/
theorem exists_ofToken_iff {text : Text} (hspells : parts.Spells text) :
    (∃ e, ofToken none wildcards maxVelocity token parts = .ok e) ↔
      parts.Measured ∧ (parts.value = .sign '-' ∨ parts.InRange maxVelocity ∧
        (parts.Silent ∨ parts.value.Declared wildcards ∧ parts.value.Legible)) := by
  obtain ⟨front, hvalue⟩ := hspells.exists_value
  constructor
  · rintro ⟨e, h⟩
    obtain ⟨ticks, hticks, h⟩ := Outcome.bind_eq_ok_iff.1 h
    refine ⟨(Length.exists_read_iff_measured _ _).1 ⟨ticks, hticks⟩, ?_⟩
    split at h
    · rename_i hhyphen
      exact .inl hhyphen
    · rename_i hhyphen
      obtain ⟨velocity, hvelocity, h⟩ := Outcome.bind_eq_ok_iff.1 h
      refine .inr ⟨exists_velocityOf_iff.1 ⟨velocity, hvelocity⟩, ?_⟩
      split at h
      · rename_i hzero
        exact .inl ((silent_iff hvelocity).2 hzero)
      · exact .inr ((exists_sounded_iff hvalue hhyphen).1 ⟨e, h⟩)
  · rintro ⟨hmeasured, h⟩
    obtain ⟨ticks, hticks⟩ := (Length.exists_read_iff_measured parts token).2 hmeasured
    by_cases hhyphen : parts.value = .sign '-'
    · exact ⟨_, Outcome.bind_eq_ok_iff.2 ⟨ticks, hticks, if_pos hhyphen⟩⟩
    · obtain ⟨hrange, h⟩ := h.resolve_left hhyphen
      obtain ⟨velocity, hvelocity⟩ :
          ∃ velocity, velocityOf maxVelocity token parts.velocity = .ok velocity :=
        exists_velocityOf_iff.2 hrange
      suffices ∃ e, (if parts.velocity.isSome ∧ velocity = 0 then .ok (pause ticks ticks.property)
          else sounded ticks wildcards velocity parts.legato token parts.value) = .ok e by
        obtain ⟨e, he⟩ := this
        exact ⟨e, Outcome.bind_eq_ok_iff.2 ⟨ticks, hticks, (if_neg hhyphen).trans
          (Outcome.bind_eq_ok_iff.2 ⟨velocity, hvelocity, he⟩)⟩⟩
      split
      · exact ⟨_, rfl⟩
      · rename_i hsounds
        exact (exists_sounded_iff hvalue hhyphen).2
          (h.resolve_left fun hsilent => hsounds ((silent_iff hvelocity).1 hsilent))

/-- A token is read if it is documented and has no integer at fault, or if it lapses. -/
theorem exists_parse_iff (text : Text) :
    (∃ e, parse none wildcards maxVelocity text = .ok e) ↔ ∃ parts : Token,
      parts.Spells (Text.trim text) ∧ (parts.Documented wildcards maxVelocity ∧
        (¬ ∃ cause, parts.Faulty maxVelocity cause) ∨ parts.Lapses wildcards maxVelocity) := by
  unfold parse
  cases hcut : Token.ofText? (Text.trim text) with
  | none =>
    refine iff_of_false (fun ⟨e, h⟩ => by cases h) ?_
    rintro ⟨parts, hspells, -⟩
    rw [Token.ofText?_eq_some_iff.2 hspells] at hcut
    cases hcut
  | some parts =>
    have hspells := Token.ofText?_eq_some_iff.1 hcut
    refine (exists_ofToken_iff hspells).trans ?_
    rw [Token.lets_through_iff hspells]
    constructor
    · intro h
      exact ⟨parts, hspells, h⟩
    · rintro ⟨parts', hspells', h⟩
      cases hcut.symm.trans (Token.ofText?_eq_some_iff.2 hspells')
      exact h

end

end Entry

namespace Pattern

section
variable {wildcards : Text} {maxVelocity : Int}

/-- A text is read if its tokens are. -/
theorem exists_parse_iff (text : Text) (ticksPerBeat : Option Int) :
    (∃ p, parse text ticksPerBeat wildcards maxVelocity = .ok p) ↔ Text.isBlank text = false ∧
      ∀ token ∈ text.splitOn ',', ∃ e,
        Entry.parse ticksPerBeat wildcards maxVelocity token = .ok e := by
  unfold parse
  cases hblank : Text.isBlank text with
  | true => simp
  | false =>
    rw [if_neg Bool.false_ne_true]
    constructor
    · rintro ⟨p, h⟩
      obtain ⟨entries, hentries, -⟩ := Outcome.bind_eq_ok_iff.1 h
      refine ⟨rfl, fun token htoken => ?_⟩
      obtain ⟨e, -, he⟩ :=
        Outcome.exists_rel_of_mem (Outcome.mapM_eq_ok_iff.1 hentries).flip htoken
      exact ⟨e, he⟩
    · rintro ⟨-, h⟩
      obtain ⟨entries, hentries⟩ := Outcome.exists_mapM_eq_ok h
      have hne : entries ≠ [] := by
        rintro rfl
        exact List.splitOn_ne_nil ',' text
          (List.forall₂_nil_right_iff.1 (Outcome.mapM_eq_ok_iff.1 hentries))
      exact ⟨⟨entries, hne⟩, Outcome.bind_eq_ok_iff.2 ⟨entries, hentries, dif_neg hne⟩⟩

/-- A text is read if each of its tokens is documented and has no integer at fault, or lapses. A
text with any other token is malformed, unless the first token that is not read has an integer at
fault. -/
theorem parse_accepts_iff (text wildcards : Text) (maxVelocity : Int) :
    ((∃ p, parse text none wildcards maxVelocity = .ok p) ↔
        Text.isBlank text = false ∧ ∀ token ∈ text.splitOn ',', ∃ parts : Token,
          parts.Spells (Text.trim token) ∧ (parts.Documented wildcards maxVelocity ∧
            (¬ ∃ cause, parts.Faulty maxVelocity cause) ∨ parts.Lapses wildcards maxVelocity)) ∧
      ∀ token ∈ text.splitOn ',',
        (∀ parts : Token, parts.Spells (Text.trim token) →
          ¬ parts.Documented wildcards maxVelocity ∧ ¬ parts.Lapses wildcards maxVelocity) →
        ∃ e, parse text none wildcards maxVelocity = .error e ∧
          Entry.Fails (Stuck none wildcards maxVelocity text) e := by
  have haccepts : (∃ p, parse text none wildcards maxVelocity = .ok p) ↔
      Text.isBlank text = false ∧ ∀ token ∈ text.splitOn ',', ∃ parts : Token,
        parts.Spells (Text.trim token) ∧ (parts.Documented wildcards maxVelocity ∧
          (¬ ∃ cause, parts.Faulty maxVelocity cause) ∨ parts.Lapses wildcards maxVelocity) := by
    simp only [exists_parse_iff, Entry.exists_parse_iff]
  refine ⟨haccepts, fun token htoken hrefused => ?_⟩
  cases hparse : parse text none wildcards maxVelocity with
  | ok p =>
    obtain ⟨parts, hspells, haccepted⟩ := (haccepts.1 ⟨p, hparse⟩).2 token htoken
    obtain ⟨hdocumented, hlapses⟩ := hrefused parts hspells
    rcases haccepted with h | h
    · exact absurd h.1 hdocumented
    · exact absurd h hlapses
  | error e => exact ⟨e, rfl, fails_parse none wildcards maxVelocity text e hparse⟩

/-- The velocity of the first token is out of range and the wildcard of the second is not declared:
both tokens are read as pauses. -/
theorem parse_lapses :
    (∃ p, parse ['-', ':', '2', '0', '0', ',', 'x', ':', '0'] none [] 127 = .ok p) ∧
      ∀ token ∈ ['-', ':', '2', '0', '0', ',', 'x', ':', '0'].splitOn ',',
        ∀ parts : Token, parts.Spells (Text.trim token) → ¬ parts.Documented [] 127 := by
  have hcut : ['-', ':', '2', '0', '0', ',', 'x', ':', '0'].splitOn ',' =
      [['-', ':', '2', '0', '0'], ['x', ':', '0']] := by decide
  have hhyphen : Token.ofText? (Text.trim ['-', ':', '2', '0', '0']) =
      some ⟨.sign '-', false, none, some ['2', '0', '0']⟩ := by decide
  have hwildcard : Token.ofText? (Text.trim ['x', ':', '0']) =
      some ⟨.sign 'x', false, none, some ['0']⟩ := by decide
  have hread : Integer.read ['2', '0', '0'] = .ok 200 := by decide
  refine ⟨⟨⟨[Entry.pause 1 Nat.one_pos, Entry.pause 1 Nat.one_pos], nofun⟩, by decide⟩, ?_⟩
  rw [hcut, List.forall_mem_cons, List.forall_mem_singleton]
  constructor
  · intro parts hspells hdocumented
    cases hhyphen.symm.trans (Token.ofText?_eq_some_iff.2 hspells)
    obtain ⟨velocity, hvelocity, -, hhigh⟩ := hdocumented.inRange _ rfl
    cases hread.symm.trans hvelocity
    omega
  · intro parts hspells hdocumented
    cases hwildcard.symm.trans (Token.ofText?_eq_some_iff.2 hspells)
    rcases hdocumented.declared with h | h
    · exact absurd h (by decide)
    · cases h

end

end Pattern

end Songsmith
