import Songsmith.Proofs.Number.Margins

/-!
# Numbers that cannot be read

A text of numerals, behind a sign or not, is read as an integer unless it says one of two things
that no integer can be read from (`Numeral.Unreadable`): more digits than the limit, or a numeral
that is no decimal digit. Nothing else can go wrong, and both give an error of their own
(`Integer.read_eq_error_iff`).
-/

namespace Songsmith

namespace Text

/-- The value of a digit is below ten. -/
theorem digitValue?_lt {c : Char} {d : Nat} (h : digitValue? c = some d) : d < 10 := by
  unfold digitValue? at h
  split at h
  · split at h
    · rename_i hdigit
      have hnine : c.toNat ≤ '9'.toNat := hdigit.2
      have : '9'.toNat = 57 := rfl
      have : '0'.toNat = 48 := rfl
      cases h
      omega
    · cases h
  · obtain ⟨start, hstart, rfl⟩ := Option.map_eq_some_iff.1 h
    have hin := List.find?_some hstart
    simp only [Bool.and_eq_true, decide_eq_true_eq] at hin
    omega

/-- A numeral that is no decimal digit lies outside the first 128 characters. -/
theorem toNat_of_isNumeral {c : Char} (h : isNumeral c = true) (hdigit : isDecimalDigit c = false) :
    0x80 ≤ c.toNat := by
  have hwide : ∀ r ∈ wideNumerals, 0x80 ≤ r.1 := by decide
  rw [isNumeral, hdigit, Bool.false_or] at h
  obtain ⟨range, hrange, hin⟩ := List.any_eq_true.1 h
  simp only [Bool.and_eq_true, decide_eq_true_eq] at hin
  exact (hwide range hrange).trans hin.1

/-- No numeral is a blank. -/
theorem isBlankChar_of_isNumeral {c : Char} (h : isNumeral c = true) : isBlankChar c = false := by
  cases hdigit : isDecimalDigit c with
  | true => exact isBlankChar_of_isDecimalDigit hdigit
  | false =>
    have hhigh := toNat_of_isNumeral h hdigit
    rw [Bool.eq_false_iff]
    intro hblank
    rw [isNumeral, hdigit, Bool.false_or] at h
    rw [isBlankChar, if_neg (by omega)] at hblank
    -- no range of blanks meets one of numerals
    have hapart : ∀ r ∈ wideBlanks, ∀ s ∈ wideNumerals, r.2 < s.1 ∨ s.2 < r.1 := by decide
    obtain ⟨blank, hblank, hin⟩ := List.any_eq_true.1 hblank
    obtain ⟨numeral, hnumeral, hin'⟩ := List.any_eq_true.1 h
    simp only [Bool.and_eq_true, decide_eq_true_eq] at hin hin'
    have := hapart blank hblank numeral hnumeral
    omega

/-- Decimal digits are a numeral. -/
theorem isNumeralText_of_isDecimalDigit {text : Text} (hne : text ≠ [])
    (h : ∀ c ∈ text, isDecimalDigit c = true) : isNumeralText text = true := by
  rw [isNumeralText, Bool.and_eq_true, Bool.not_eq_true', List.isEmpty_eq_false_iff,
    List.all_eq_true]
  exact ⟨hne, fun c hc => by rw [isNumeral, h c hc, Bool.true_or]⟩

end Text

namespace Numeral

/-- The text of an integer: numerals, at least one, behind a sign or not. -/
def Whole (text : Text) : Prop := Text.isNumeralText (splitSign text).2 = true

/-- The digits at the start of a number, behind its sign. -/
def digitCount (text : Text) : Nat := ((splitSign text).2.takeWhile Text.isDecimalDigit).length

/-- Why no integer can be read from numerals behind a sign: there are more digits than the limit, or
there is a numeral that is no decimal digit. -/
inductive Unreadable (text : Text) : Invalid → Prop
  | tooLong : Integer.digitLimit < digitCount text →
      Unreadable text (.integerTextLength (digitCount text))
  | noDigit : digitCount text ≤ Integer.digitLimit →
      (∃ c ∈ (splitSign text).2, Text.isDecimalDigit c = false) →
      Unreadable text (.integerText text)

/-! ## Plain forms of numerals -/

/-- The digit written as one of the first 128 characters. -/
def plainChar (c : Char) : Char :=
  match Text.digitValue? c with
  | some d => Nat.digitChar d
  | none => c

/-- What is no decimal digit has no other plain form. -/
theorem plainChar_eq_self {c : Char} (h : Text.isDecimalDigit c = false) : plainChar c = c := by
  unfold plainChar
  split
  · rename_i d hd
    rw [Text.isDecimalDigit, hd] at h
    cases h
  · rfl

/-- The plain forms of the digits are the plain digits. -/
theorem isDigit_plainChar (c : Char) : (plainChar c).isDigit = Text.isDecimalDigit c := by
  cases hdigit : Text.isDecimalDigit c with
  | true =>
    have hten : ∀ d < 10, (Nat.digitChar d).isDigit = true := by decide
    obtain ⟨d, hd⟩ := Option.isSome_iff_exists.1 hdigit
    rw [plainChar, hd]
    exact hten d (Text.digitValue?_lt hd)
  | false =>
    rw [plainChar_eq_self hdigit, Bool.eq_false_iff]
    intro hplain
    rw [Text.isDecimalDigit_of_isDigit hplain] at hdigit
    cases hdigit

/-- The plain form of a numeral is a digit, or none of the first 128 characters. -/
theorem plainChar_ne {c d : Char} (h : Text.isNumeral c = true) (hdigit : d.isDigit = false)
    (hlow : d.toNat < 0x80) : plainChar c ≠ d := by
  rintro rfl
  rw [isDigit_plainChar] at hdigit
  rw [plainChar_eq_self hdigit] at hlow
  have := Text.toNat_of_isNumeral h hdigit
  omega

section
variable {text body : Text}

/-- The numerals of a number are all in its plain form, one for one. -/
theorem plain_eq_map (h : ∀ c ∈ text, Text.isNumeral c = true ∨ c = '-' ∨ c = '+') :
    plain text = text.map plainChar := by
  have hmargin : ∀ c ∈ text, isMargin c = false := by
    intro c hc
    rcases h c hc with hnumeral | rfl | rfl
    · rw [isMargin, Text.isBlankChar_of_isNumeral hnumeral, Bool.false_and]
    · decide
    · decide
  have htight : Text.Tight isMargin text :=
    ⟨fun c hc => hmargin c (List.mem_of_head? hc), fun c hc => hmargin c (List.mem_of_getLast? hc)⟩
  rw [plain, htight.trimBy_eq]
  rfl

/-- A text that does not begin with a sign has none. -/
theorem splitSign_of_head (h : ∀ c, text.head? = some c → c ≠ '-' ∧ c ≠ '+') :
    splitSign text = (false, text) := by
  unfold splitSign
  split
  · exact absurd rfl (h _ rfl).1
  · exact absurd rfl (h _ rfl).2
  · rfl

/-- Numerals without a sign in front are all of the number. -/
theorem splitSign_of_isNumeral (h : ∀ c ∈ text, Text.isNumeral c = true) :
    splitSign text = (false, text) := by
  refine splitSign_of_head fun c hc => ⟨?_, ?_⟩ <;>
    exact fun hsign => absurd (h c (List.mem_of_head? hc)) (by rw [hsign]; decide)

/-- A numeral is whole. -/
theorem whole_of_isNumeralText (h : Text.isNumeralText text = true) : Whole text := by
  have hnumeral := h
  rw [Text.isNumeralText, Bool.and_eq_true, List.all_eq_true] at hnumeral
  rwa [Whole, splitSign_of_isNumeral hnumeral.2]

/-- A sign is told apart from the numerals in the plain form too. -/
theorem splitSign_plain (h : ∀ c ∈ (splitSign text).2, Text.isNumeral c = true) :
    splitSign (plain text) = ((splitSign text).1, (splitSign text).2.map plainChar) := by
  unfold splitSign at h
  split at h
  · rw [plain_eq_map fun c hc =>
      (List.mem_cons.1 hc).elim (fun hc => .inr (.inl hc)) fun hc => .inl (h c hc)]
    rfl
  · rw [plain_eq_map fun c hc =>
      (List.mem_cons.1 hc).elim (fun hc => .inr (.inr hc)) fun hc => .inl (h c hc)]
    rfl
  · have hplain : ∀ c, (text.map plainChar).head? = some c → c ≠ '-' ∧ c ≠ '+' := by
      intro c hc
      obtain ⟨d, hd, rfl⟩ := Option.map_eq_some_iff.1 (List.head?_map ▸ hc)
      have hnumeral := h d (List.mem_of_head? hd)
      exact ⟨plainChar_ne hnumeral (by decide) (by decide),
        plainChar_ne hnumeral (by decide) (by decide)⟩
    rw [plain_eq_map fun c hc => .inl (h c hc), splitSign_of_head hplain,
      splitSign_of_isNumeral h]

/-- The places of a number in its plain form are its decimal digits. -/
theorem isPlace_plainChar {c : Char} (h : Text.isNumeral c = true) :
    ((plainChar c).isDigit || plainChar c == '_') = Text.isDecimalDigit c := by
  rw [isDigit_plainChar, beq_false_of_ne (plainChar_ne h (by decide) (by decide)), Bool.or_false]

/-- The plain places of a numeral are those of its decimal digits in front. -/
theorem takeWhile_isPlace (h : ∀ c ∈ body, Text.isNumeral c = true) :
    (body.map plainChar).takeWhile (fun c => c.isDigit || c == '_') =
      (body.takeWhile Text.isDecimalDigit).map plainChar := by
  rw [List.takeWhile_map]
  congr 1
  induction body with
  | nil => rfl
  | cons c body ih =>
    rw [List.takeWhile_cons, List.takeWhile_cons, Function.comp_apply,
      isPlace_plainChar (h c List.mem_cons_self), ih fun c hc => h c (List.mem_cons_of_mem _ hc)]

/-- The places at the start of a number in its plain form are none, or not the whole of it, if there
is a numeral that is no decimal digit. -/
theorem takeWhile_isPlace_ne_iff (hne : body ≠ []) (h : ∀ c ∈ body, Text.isNumeral c = true) :
    (((body.takeWhile Text.isDecimalDigit).map plainChar).isEmpty ||
        !((body.map plainChar).dropWhile fun c => c.isDigit || c == '_').isEmpty) = true ↔
      ∃ c ∈ body, Text.isDecimalDigit c = false := by
  have hdrop : ((body.map plainChar).dropWhile fun c => c.isDigit || c == '_') = [] ↔
      ∀ c ∈ body, Text.isDecimalDigit c = true := by
    rw [List.dropWhile_eq_nil_iff, List.forall_mem_map]
    exact forall₂_congr fun c hc => by rw [isPlace_plainChar (h c hc)]
  rw [Bool.or_eq_true, List.isEmpty_iff, List.map_eq_nil_iff, Bool.not_eq_true',
    List.isEmpty_eq_false_iff, Ne, hdrop]
  constructor
  · rintro (hnone | hrest)
    · obtain ⟨c, body, rfl⟩ := List.exists_cons_of_ne_nil hne
      exact ⟨c, List.mem_cons_self, by simpa using hnone⟩
    · simpa using hrest
  · rintro ⟨c, hc, hdigit⟩
    exact .inr fun hall => by rw [hall c hc] at hdigit; cases hdigit

end

end Numeral

namespace Integer

/-- Numerals behind a sign are read unless one of the two things is in the way, and that is the
error. -/
theorem read_eq_error_iff {text : Text} {e : Error} (h : Numeral.Whole text) :
    read text = .error e ↔ ∃ cause, e = .invalid cause ∧ Numeral.Unreadable text cause := by
  simp only [Numeral.Whole, Text.isNumeralText, Bool.and_eq_true, List.all_eq_true,
    Bool.not_eq_true', List.isEmpty_eq_false_iff] at h
  obtain ⟨hne, hnumeral⟩ := h
  have hlines : '_' ∉ ((Numeral.splitSign text).2.takeWhile Text.isDecimalDigit).map
      Numeral.plainChar := by
    rintro hline
    obtain ⟨c, hc, hplain⟩ := List.mem_map.1 hline
    exact Numeral.plainChar_ne (hnumeral c (List.takeWhile_subset _ hc)) (by decide) (by decide)
      hplain
  have hcount : ((Numeral.splitSign text).2.takeWhile Text.isDecimalDigit).length =
      Numeral.digitCount text := rfl
  unfold read
  simp only [Numeral.splitSign_plain hnumeral, Numeral.takeWhile_isPlace hnumeral,
    Numeral.ungrouped?_eq hlines, List.length_map, hcount,
    Numeral.takeWhile_isPlace_ne_iff hne hnumeral]
  split
  · rename_i hlimit
    constructor
    · rintro ⟨⟩
      exact ⟨_, rfl, .tooLong hlimit⟩
    · rintro ⟨_, rfl, hunreadable⟩
      cases hunreadable with
      | tooLong => rfl
      | noDigit hle => exact absurd hle (Nat.not_le.2 hlimit)
  · rename_i hlimit
    split
    · rename_i hdigit
      constructor
      · rintro ⟨⟩
        exact ⟨_, rfl, .noDigit (Nat.not_lt.1 hlimit) hdigit⟩
      · rintro ⟨_, rfl, hunreadable⟩
        cases hunreadable with
        | tooLong hlt => exact absurd hlt hlimit
        | noDigit => rfl
    · rename_i hdigit
      constructor
      · rintro ⟨⟩
      · rintro ⟨_, rfl, hunreadable⟩
        cases hunreadable with
        | tooLong hlt => exact absurd hlt hlimit
        | noDigit _ hnone => exact absurd hnone hdigit

/-- A whole text that is not read is unreadable, and for no other reason. -/
theorem fails_read {text : Text} {Expected : Error → Prop} (h : Numeral.Whole text) :
    Outcome.FailsWith (Outcome.OrInvalid Expected (Numeral.Unreadable text)) (read text) := by
  intro e he
  obtain ⟨cause, rfl, hcause⟩ := (read_eq_error_iff h).1 he
  exact .invalid hcause

/-- Decimal digits are read as their value, unless there are more of them than the limit. -/
theorem read_decimal {digits : Text} (hne : digits ≠ [])
    (hdigits : ∀ c ∈ digits, Text.isDecimalDigit c = true) :
    read digits = if digits.length ≤ digitLimit then .ok (Numeral.value (Numeral.plain digits))
      else .error (.invalid (.integerTextLength digits.length)) := by
  have hnumeral : ∀ c ∈ digits, Text.isNumeral c = true := fun c hc => by
    rw [Text.isNumeral, hdigits c hc, Bool.true_or]
  have hplain : Numeral.plain digits = digits.map Numeral.plainChar :=
    Numeral.plain_eq_map fun c hc => .inl (hnumeral c hc)
  have hsign : Numeral.splitSign (digits.map Numeral.plainChar) =
      (false, digits.map Numeral.plainChar) := by
    rw [← hplain, Numeral.splitSign_plain] <;> rw [Numeral.splitSign_of_isNumeral hnumeral]
    · rw [hplain]
    · exact hnumeral
  have hplace : ∀ c ∈ digits.map Numeral.plainChar, (c.isDigit || c == '_') = true := by
    rw [List.forall_mem_map]
    intro c hc
    rw [Numeral.isPlace_plainChar (hnumeral c hc), hdigits c hc]
  have hlines : '_' ∉ digits.map Numeral.plainChar := by
    rintro hline
    obtain ⟨c, hc, hline⟩ := List.mem_map.1 hline
    exact Numeral.plainChar_ne (hnumeral c hc) (by decide) (by decide) hline
  have hempty : (digits.map Numeral.plainChar).isEmpty = false :=
    List.isEmpty_eq_false_iff.2 fun h => hne (List.map_eq_nil_iff.1 h)
  unfold read
  simp only [hplain, hsign, List.takeWhile_eq_self_iff.2 hplace,
    List.dropWhile_eq_nil_iff.2 hplace, Numeral.ungrouped?_eq hlines, List.length_map, hempty]
  split
  · rename_i hlimit
    rw [if_neg (Nat.not_le.2 hlimit)]
  · rename_i hlimit
    rw [if_pos (Nat.not_lt.1 hlimit)]
    rfl

/-- A whole text that is unreadable fails with the cause of that. -/
theorem read_of_unreadable {text : Text} {cause : Invalid} (h : Numeral.Whole text)
    (hcause : Numeral.Unreadable text cause) : read text = .error (.invalid cause) :=
  (read_eq_error_iff h).2 ⟨cause, rfl, hcause⟩

/-- Numerals are read if nothing is in the way. -/
theorem exists_read_iff {text : Text} (h : Numeral.Whole text) :
    (∃ n, read text = .ok n) ↔ ∀ cause, ¬ Numeral.Unreadable text cause := by
  constructor
  · rintro ⟨n, hn⟩ cause hcause
    rw [read_of_unreadable h hcause] at hn
    cases hn
  · intro hlegible
    cases hread : read text with
    | ok n => exact ⟨n, rfl⟩
    | error e =>
      obtain ⟨cause, -, hcause⟩ := (read_eq_error_iff h).1 hread
      exact absurd hcause (hlegible cause)

end Integer

end Songsmith
