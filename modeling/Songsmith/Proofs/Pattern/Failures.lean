import Songsmith.Proofs.Number.Limits
import Songsmith.Proofs.Pattern.RoundTrip

/-!
# How reading a pattern fails

A pattern text that does not follow its language is malformed, and there is one other way to fail:
an integer that the grammar of tokens admits and that cannot be read or shown (`Token.Faulty`). The
grammar takes any run of digits for a pitch or a velocity, and any numeral by itself for a pitch,
while an integer is read from at most `Integer.digitLimit` decimal digits.
`Pattern.parse_fails_iff` says at which texts that happens, and that there is no third way.
-/

namespace Songsmith

namespace Token

/-- The numerals that the value of a token is read from, unless it is a pause or a wildcard. -/
def Value.numerals? : Value → Option Text
  | .number text => some text
  | .sign c => if Text.isNumeral c then some [c] else none

/-- What can be wrong with the integers of a token: its velocity cannot be read; its velocity is out
of a range whose bound is too long to be shown; or its velocity is positive and in range, or not
stated, and its pitch cannot be read. -/
inductive Faulty (maxVelocity : Int) (token : Token) : Invalid → Prop
  | velocity {text : Text} {cause : Invalid} : token.velocity = some text →
      Numeral.Unreadable text cause → Faulty maxVelocity token cause
  | range {text : Text} {velocity : Int} : token.velocity = some text →
      Integer.read text = .ok velocity → velocity < 0 ∨ maxVelocity < velocity →
      Integer.digitLimit < (Nat.toDigits 10 maxVelocity.natAbs).length →
      Faulty maxVelocity token .integerLength
  | pitch {text : Text} {cause : Invalid} :
      (∀ stated ∈ token.velocity, ∃ velocity, Integer.read stated = .ok velocity ∧ 0 < velocity ∧
        velocity ≤ maxVelocity) →
      token.value.numerals? = some text → Numeral.Unreadable text cause →
      Faulty maxVelocity token cause

/-! ## The integers of a token -/

/-- A sign is read as a numeral exactly if it is a digit of some kind. -/
theorem numerals?_sign_eq_some_iff {c : Char} {text : Text} :
    (Value.sign c).numerals? = some text ↔ Text.isNumeral c = true ∧ [c] = text := by
  rw [Value.numerals?, Option.ite_none_right_eq_some, Option.some.injEq]

/-- An integer is whole, behind its sign or without one. -/
theorem IsInteger.whole {text : Text} (h : IsInteger text) : Numeral.Whole text := by
  cases h with
  | plain hne hdigits =>
    exact Numeral.whole_of_isNumeralText (Text.isNumeralText_of_isDecimalDigit hne hdigits)
  | negative hne hdigits => exact Text.isNumeralText_of_isDecimalDigit hne hdigits

/-- The numerals of a value are whole. -/
theorem Value.Spells.whole {value : Value} {text : Text} (h : value.Spells text) :
    ∀ numerals ∈ value.numerals?, Numeral.Whole numerals := by
  intro numerals hnumerals
  cases h with
  | number h =>
    cases hnumerals
    exact h.whole
  | sign =>
    obtain ⟨hnumeral, rfl⟩ := numerals?_sign_eq_some_iff.1 hnumerals
    exact Numeral.whole_of_isNumeralText (by simp [Text.isNumeralText, hnumeral])

/-- The integers of a token are numerals, behind a sign or not. -/
theorem whole_of_ofText? {text : Text} {token : Token} (h : ofText? text = some token) :
    (∀ numerals ∈ token.value.numerals?, Numeral.Whole numerals) ∧
      ∀ stated ∈ token.velocity, Numeral.Whole stated := by
  obtain ⟨hvalue, -, hvelocity⟩ := ofText?_eq_some_iff.1 h
  exact ⟨hvalue.whole, fun stated hstated => (hvelocity stated hstated).whole⟩

end Token

namespace Entry

/-- A token that is cut into parts and has a length, and an integer that is at fault. -/
def Stuck (ticksPerBeat : Option Int) (maxVelocity : Int) (text : Text) (cause : Invalid) : Prop :=
  ∃ parts ticks, Token.ofText? (Text.trim text) = some parts ∧
    Length.read ticksPerBeat parts.length (Text.trim text) = .ok ticks ∧
    parts.value ≠ .sign '-' ∧ parts.Faulty maxVelocity cause

/-- The text does not follow its language. -/
def IsMalformed (e : Error) : Prop := ∃ cause, e = .malformed cause

/-- An integer at fault does not make a text malformed. -/
theorem not_isMalformed (cause : Invalid) : ¬ IsMalformed (.invalid cause) := by
  rintro ⟨_, h⟩
  cases h

/-- A text is malformed, or it holds an integer of which `P` says that it is at fault. -/
abbrev Fails (P : Invalid → Prop) : Error → Prop := Outcome.OrInvalid IsMalformed P

/-- A malformed text is one of the failures. -/
theorem Fails.malformed {P : Invalid → Prop} (cause : Malformed) : Fails P (.malformed cause) :=
  .expected ⟨cause, rfl⟩

section
variable {ticksPerBeat : Option Int} {wildcards : Text} {maxVelocity : Int} {token : Text}
  {parts : Token}

/-! ## What goes wrong -/

/-- A length that is not read is malformed. -/
theorem fails_length (ticksPerBeat : Option Int) (length : Option Text) (token : Text) :
    Outcome.FailsWith (Fails fun _ => False) (Length.read ticksPerBeat length token) := by
  unfold Length.read
  split
  · exact .error (.malformed _)
  · split
    · exact .ok _
    · exact .error (.malformed _)

/-- A velocity out of range is malformed, unless the greatest velocity is too long for the report of
that. -/
theorem fails_outOfRange (maxVelocity : Int) (token : Text) :
    Fails (fun cause => cause = .integerLength ∧
      Integer.digitLimit < (Nat.toDigits 10 maxVelocity.natAbs).length)
      (outOfRange maxVelocity token) := by
  unfold outOfRange Integer.write
  split
  · exact .malformed _
  · rename_i e he
    split at he
    · rename_i hlong
      cases he
      exact .invalid ⟨rfl, hlong⟩
    · cases he

/-- A velocity is read, or malformed, or at fault itself. -/
theorem fails_velocityOf (hstated : ∀ text ∈ parts.velocity, Numeral.Whole text) :
    Outcome.FailsWith (Fails (parts.Faulty maxVelocity))
      (velocityOf maxVelocity token parts.velocity) := by
  cases hparts : parts.velocity with
  | none => exact .ok _
  | some text =>
    refine ((Integer.fails_read (hstated text hparts)).imp fun cause h => .velocity hparts h).bind
      fun velocity hvelocity => ?_
    split
    · rename_i hrange
      refine Outcome.FailsWith.imp (.error (fails_outOfRange maxVelocity token)) ?_
      rintro cause ⟨rfl, hlong⟩
      exact .range hparts hvelocity hrange hlong
    · exact .ok _

/-- What is left of a token is read, or malformed, or its numerals are unreadable. -/
theorem fails_sounded {ticks : { n : Nat // 0 < n }} {velocity : Int} {legato : Bool}
    {value : Token.Value} (hvalue : ∀ numerals ∈ value.numerals?, Numeral.Whole numerals) :
    Outcome.FailsWith
      (Fails fun cause => ∃ text, value.numerals? = some text ∧ Numeral.Unreadable text cause)
      (sounded ticks wildcards velocity legato token value) := by
  have hread : ∀ text, value.numerals? = some text → Outcome.FailsWith
      (Fails fun cause => ∃ text, value.numerals? = some text ∧ Numeral.Unreadable text cause)
      (Integer.read text) := fun text htext =>
    (Integer.fails_read (hvalue text htext)).imp fun cause h => ⟨text, htext, h⟩
  unfold sounded
  split
  · exact (hread _ rfl).map
  · split
    · rename_i hnumeral
      exact (hread _ (Token.numerals?_sign_eq_some_iff.2 ⟨hnumeral, rfl⟩)).map
    · split
      · exact .ok _
      · exact .error (.malformed _)

/-- A stated velocity is an integer between zero and the greatest velocity. -/
theorem velocityOf_some_eq_ok_iff {text : Text} {velocity : Int} :
    velocityOf maxVelocity token (some text) = .ok velocity ↔
      Integer.read text = .ok velocity ∧ 0 ≤ velocity ∧ velocity ≤ maxVelocity := by
  rw [velocityOf, Outcome.bind_eq_ok_iff]
  constructor
  · rintro ⟨v, hread, h⟩
    split at h
    · cases h
    · cases h
      exact ⟨hread, by omega, by omega⟩
  · rintro ⟨hread, hlow, hhigh⟩
    exact ⟨velocity, hread, if_neg (by omega)⟩

/-- A velocity that is stated and not zero is positive and in range. -/
theorem exists_velocity {stated : Option Text} {velocity : Int}
    (h : velocityOf maxVelocity token stated = .ok velocity)
    (hzero : ¬ (stated.isSome ∧ velocity = 0)) :
    ∀ text ∈ stated, ∃ velocity, Integer.read text = .ok velocity ∧ 0 < velocity ∧
      velocity ≤ maxVelocity := by
  rintro text ⟨⟩
  obtain ⟨hread, hlow, hhigh⟩ := velocityOf_some_eq_ok_iff.1 h
  have hne : velocity ≠ 0 := fun h0 => hzero ⟨rfl, h0⟩
  exact ⟨velocity, hread, by omega, hhigh⟩

/-- A token is read, or malformed, or holds an integer at fault. -/
theorem fails_parse (ticksPerBeat : Option Int) (wildcards : Text) (maxVelocity : Int)
    (text : Text) : Outcome.FailsWith (Fails (Stuck ticksPerBeat maxVelocity text))
      (parse ticksPerBeat wildcards maxVelocity text) := by
  unfold parse
  split
  · exact .error (.malformed _)
  · rename_i parts hparts
    obtain ⟨hvalue, hstated⟩ := Token.whole_of_ofText? hparts
    refine (fails_length _ _ _).of_false.bind fun ticks hticks => ?_
    split
    · exact .ok _
    · rename_i hsign
      have hfaulty : ∀ cause, parts.Faulty maxVelocity cause →
          Stuck ticksPerBeat maxVelocity text cause := fun cause h =>
        ⟨parts, ticks, hparts, hticks, hsign, h⟩
      refine ((fails_velocityOf hstated).imp hfaulty).bind fun velocity hvelocity => ?_
      split
      · exact .ok _
      · rename_i hzero
        refine (fails_sounded hvalue).imp ?_
        rintro cause ⟨numerals, hnumerals, hcause⟩
        exact hfaulty cause (.pitch (exists_velocity hvelocity hzero) hnumerals hcause)

/-! ## Where it goes wrong -/

/-- If the greatest velocity is too long for the report, this is the error. -/
theorem outOfRange_eq (token : Text)
    (h : Integer.digitLimit < (Nat.toDigits 10 maxVelocity.natAbs).length) :
    outOfRange maxVelocity token = .invalid .integerLength := by
  rw [outOfRange, Integer.write, if_pos h]

/-- Numerals that cannot be read are the error of their token. -/
theorem sounded_eq_error {ticks : { n : Nat // 0 < n }} {velocity : Int} {legato : Bool}
    {value : Token.Value} {text : Text} {e : Error} (htext : value.numerals? = some text)
    (h : Integer.read text = .error e) :
    sounded ticks wildcards velocity legato token value = .error e := by
  cases value with
  | number _ =>
    cases htext
    rw [sounded, h]
    rfl
  | sign c =>
    obtain ⟨hnumeral, rfl⟩ := Token.numerals?_sign_eq_some_iff.1 htext
    rw [sounded, if_pos hnumeral, h]
    rfl

/-- An integer that is at fault is met, and that is the error. -/
theorem parse_of_stuck {text : Text} {cause : Invalid}
    (h : Stuck ticksPerBeat maxVelocity text cause) :
    parse ticksPerBeat wildcards maxVelocity text = .error (.invalid cause) := by
  obtain ⟨parts, ticks, hparts, hticks, hsign, h⟩ := h
  obtain ⟨hvalue, hstated⟩ := Token.whole_of_ofText? hparts
  rw [parse, hparts]
  refine Outcome.bind_eq_error_iff.2 (.inr ⟨ticks, hticks, ?_⟩)
  rw [if_neg hsign]
  refine Outcome.bind_eq_error_iff.2 ?_
  cases h with
  | velocity htext hcause =>
    left
    rw [htext]
    exact Outcome.bind_eq_error_iff.2
      (.inl (Integer.read_of_unreadable (hstated _ htext) hcause))
  | range htext hread hrange hlong =>
    left
    rw [htext]
    exact Outcome.bind_eq_error_iff.2
      (.inr ⟨_, hread, (if_pos hrange).trans (congrArg _ (outOfRange_eq _ hlong))⟩)
  | pitch hvelocity htext hcause =>
    right
    have hread := Integer.read_of_unreadable (hvalue _ htext) hcause
    cases hnone : parts.velocity with
    | none =>
      exact ⟨maxVelocity, rfl, (if_neg fun h => by cases h.1).trans (sounded_eq_error htext hread)⟩
    | some stated =>
      obtain ⟨velocity, hv, hpos, hmax⟩ := hvelocity stated hnone
      refine ⟨velocity, velocityOf_some_eq_ok_iff.2 ⟨hv, Int.le_of_lt hpos, hmax⟩, ?_⟩
      exact (if_neg fun h => Int.ne_of_gt hpos h.2).trans (sounded_eq_error htext hread)

end

end Entry

namespace Pattern

/-- The first token of a text that is not read is one with an integer at fault. -/
def Stuck (ticksPerBeat : Option Int) (wildcards : Text) (maxVelocity : Int) (text : Text)
    (cause : Invalid) : Prop :=
  Text.isBlank text = false ∧ ∃ before token after entries,
    text.splitOn ',' = before ++ token :: after ∧
    before.mapM (Entry.parse ticksPerBeat wildcards maxVelocity) = .ok entries ∧
    Entry.Stuck ticksPerBeat maxVelocity token cause

section
variable {ticksPerBeat : Option Int} {wildcards : Text} {maxVelocity : Int} {text : Text}

/-- Entries that make no pattern are malformed. -/
theorem fails_ofEntries (entries : List Entry) :
    Outcome.FailsWith (Entry.Fails fun _ => False) (ofEntries entries) := by
  unfold ofEntries
  split
  · exact .error (.malformed _)
  · exact .ok _

/-- A text is read, or malformed, or its first token that is not read holds an integer at fault. -/
theorem fails_parse (ticksPerBeat : Option Int) (wildcards : Text) (maxVelocity : Int)
    (text : Text) :
    Outcome.FailsWith (Entry.Fails (Stuck ticksPerBeat wildcards maxVelocity text))
      (parse text ticksPerBeat wildcards maxVelocity) := by
  unfold parse
  split
  · exact .error (.malformed _)
  · rename_i hblank
    refine Outcome.FailsWith.bind (fun e he => ?_) fun entries _ => (fails_ofEntries _).of_false
    obtain ⟨before, token, after, entries, hcut, hbefore, he⟩ := Outcome.mapM_eq_error_iff.1 he
    refine (Entry.fails_parse _ _ _ token).imp (fun cause hstuck => ?_) e he
    exact ⟨Bool.eq_false_iff.2 hblank, before, token, after, entries, hcut, hbefore, hstuck⟩

/-- A text whose first such token holds an integer at fault fails with the cause of that. -/
theorem parse_of_stuck {cause : Invalid} (h : Stuck ticksPerBeat wildcards maxVelocity text cause) :
    parse text ticksPerBeat wildcards maxVelocity = .error (.invalid cause) := by
  obtain ⟨hblank, before, token, after, entries, hcut, hbefore, hstuck⟩ := h
  rw [parse, if_neg (by rw [hblank]; exact Bool.false_ne_true)]
  exact Outcome.bind_eq_error_iff.2 (.inl (Outcome.mapM_eq_error_iff.2
    ⟨before, token, after, entries, hcut, hbefore, Entry.parse_of_stuck hstuck⟩))

/-- A text is read or found to be malformed, unless the first token that is not read has an integer
at fault; then that is the error. -/
theorem parse_fails_iff (text : Text) (ticksPerBeat : Option Int) (wildcards : Text)
    (maxVelocity : Int) :
    (∀ cause, parse text ticksPerBeat wildcards maxVelocity = .error (.invalid cause) ↔
        Stuck ticksPerBeat wildcards maxVelocity text cause) ∧
      ((¬ ∃ cause, Stuck ticksPerBeat wildcards maxVelocity text cause) ↔
        (∃ p, parse text ticksPerBeat wildcards maxVelocity = .ok p) ∨
          ∃ e, parse text ticksPerBeat wildcards maxVelocity = .error e ∧ Entry.IsMalformed e) :=
  (fails_parse ticksPerBeat wildcards maxVelocity text).eq_invalid_iff Entry.not_isMalformed
    fun _ hstuck => parse_of_stuck hstuck

/-- A superscript is a numeral and no decimal digit: it is taken for a pitch, which cannot be read,
and not for an unknown wildcard. -/
theorem parse_superscript :
    parse ['²'] none [] 127 = .error (.invalid (.integerText ['²'])) ∧
      ¬ ((∃ p, parse ['²'] none [] 127 = .ok p) ∨
        ∃ e, parse ['²'] none [] 127 = .error e ∧ Entry.IsMalformed e) := by
  have h : parse ['²'] none [] 127 = .error (.invalid (.integerText ['²'])) := by decide
  rw [h]
  exact ⟨rfl, by rintro (⟨p, ⟨⟩⟩ | ⟨e, ⟨⟩, cause, ⟨⟩⟩)⟩

end

end Pattern

end Songsmith
