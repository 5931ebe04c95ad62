import Songsmith.Number.Integer
import Songsmith.Proofs.Text.Parts
import Mathlib.Algebra.Ring.Nat

/-!
# Written integers

An integer is read again from its decimal digits, as long as they are few enough
(`Integer.read_digits`). The plain digits are the first ten digits of
`Nat.digitChar` (`Text.exists_digitChar`), which reduces what is said of one of them to ten cases.
-/

namespace Songsmith

namespace Text

/-- A plain digit is the digit of a number below ten. -/
theorem exists_digitChar {c : Char} (h : c.isDigit = true) : ∃ d < 10, c = Nat.digitChar d := by
  obtain ⟨hlow, hhigh⟩ := Char.isDigit_iff_toNat.1 h
  have hzero : '0'.toNat = 48 := rfl
  have hnine : '9'.toNat = 57 := rfl
  refine ⟨c.toNat - 48, by omega, Char.toNat_inj.1 ?_⟩
  rw [Nat.toNat_digitChar_of_lt_ten (by omega)]
  omega

/-- A plain digit is a decimal digit. -/
theorem isDecimalDigit_of_isDigit {c : Char} (h : c.isDigit = true) :
    isDecimalDigit c = true := by
  obtain ⟨d, hd, rfl⟩ := exists_digitChar h
  revert d
  decide

/-- A plain digit is no blank. -/
theorem isBlankChar_of_isDigit {c : Char} (h : c.isDigit = true) : isBlankChar c = false := by
  obtain ⟨d, hd, rfl⟩ := exists_digitChar h
  revert d
  decide

/-- The plain form of a plain digit is the digit. -/
theorem plainChar_of_isDigit {c : Char} (h : c.isDigit = true) :
    (match digitValue? c with
      | some d => Nat.digitChar d
      | none => c) = c := by
  obtain ⟨d, hd, rfl⟩ := exists_digitChar h
  revert d
  decide

end Text

namespace Numeral

/-- A text of plain digits behind a sign, if any, is in its plain form. -/
theorem plain_eq {text : Text} (h : ∀ c ∈ text, c.isDigit = true ∨ c = '-') :
    plain text = text := by
  have hmargin : ∀ {c}, c ∈ text → isMargin c = false := by
    intro c hc
    rcases h c hc with hdigit | rfl
    · rw [isMargin, Text.isBlankChar_of_isDigit hdigit, Bool.false_and]
    · decide
  have htight : Text.Tight isMargin text :=
    ⟨fun c hc => hmargin (List.mem_of_head? hc), fun c hc => hmargin (List.mem_of_getLast? hc)⟩
  rw [plain, htight.trimBy_eq]
  refine (List.map_congr_left fun c hc => ?_).trans (List.map_id text)
  rcases h c hc with hdigit | rfl
  · exact Text.plainChar_of_isDigit hdigit
  · decide

/-- There is nothing to take out of a text without low lines. -/
theorem ungrouped?_eq {text : Text} (h : '_' ∉ text) (afterDigit : Bool) :
    ungrouped? afterDigit text = some text := by
  induction text generalizing afterDigit with
  | nil => rfl
  | cons c text ih =>
    have hc : c ≠ '_' := fun hc => h (hc ▸ List.mem_cons_self)
    unfold ungrouped?
    split
    · rename_i hnil
      cases hnil
    · rename_i hcons
      cases hcons
      exact absurd rfl hc
    · rename_i hcons
      cases hcons
      rw [ih (fun hmem => h (List.mem_cons_of_mem _ hmem))]
      rfl

/-- The value of the digits of a number is the number. -/
theorem value_toDigits (n : Nat) : value (Nat.toDigits 10 n) = n := by
  have := Nat.ofDigitChars_ten_toDigits (n := n)
  rwa [Nat.ofDigitChars_eq_foldl] at this

/-- Plain digits have no sign in front. -/
theorem splitSign_of_isDigit {text : Text} (h : ∀ c ∈ text, c.isDigit = true) :
    splitSign text = (false, text) := by
  unfold splitSign
  split
  · exact absurd (h _ List.mem_cons_self) (by decide)
  · exact absurd (h _ List.mem_cons_self) (by decide)
  · rfl

end Numeral

namespace Integer

/-- The digits of a number are plain ones. -/
theorem isDigit_of_mem_toDigits {n : Nat} {c : Char} (h : c ∈ Nat.toDigits 10 n) :
    c.isDigit = true :=
  Nat.isDigit_of_mem_toDigits (by decide) (by decide) h

/-- The digits of an integer are plain digits, behind a minus sign if it is negative. -/
theorem isDigit_of_mem_digits {n : Int} {c : Char} (h : c ∈ digits n) :
    c.isDigit = true ∨ c = '-' := by
  unfold digits at h
  split at h
  · rcases List.mem_cons.1 h with rfl | h
    · exact .inr rfl
    · exact .inl (isDigit_of_mem_toDigits h)
  · exact .inl (isDigit_of_mem_toDigits h)

/-- There are neither blanks nor commas in a written integer. -/
theorem solid_digits (n : Int) : Text.Solid (digits n) := by
  intro c hc
  rcases isDigit_of_mem_digits hc with hdigit | rfl
  · refine ⟨Text.isBlankChar_of_isDigit hdigit, ?_⟩
    rintro rfl
    exact absurd hdigit (by decide)
  · decide

/-- A natural number is written without a sign. -/
theorem digits_natCast (n : Nat) : digits n = Nat.toDigits 10 n := by
  rw [digits, if_neg (by omega), Int.natAbs_natCast]

/-- Every number has a digit. -/
theorem digits_natCast_ne_nil (n : Nat) : digits n ≠ [] := by
  rw [digits_natCast]
  exact Nat.toDigits_ne_nil

/-- A natural number is written with plain digits only. -/
theorem isDigit_of_mem_digits_natCast {n : Nat} {c : Char} (h : c ∈ digits n) :
    c.isDigit = true := by
  rw [digits_natCast] at h
  exact isDigit_of_mem_toDigits h

/-- The sign and the digits of a written integer. -/
theorem splitSign_digits (n : Int) :
    Numeral.splitSign (digits n) = (decide (n < 0), Nat.toDigits 10 n.natAbs) := by
  unfold digits
  split
  · rename_i hneg
    rw [decide_eq_true hneg]
    rfl
  · rename_i hpos
    rw [decide_eq_false hpos]
    exact Numeral.splitSign_of_isDigit fun c hc => isDigit_of_mem_toDigits hc

/-- An integer is read again from its digits. -/
theorem read_digits {n : Int} (h : (Nat.toDigits 10 n.natAbs).length ≤ digitLimit) :
    read (digits n) = .ok n := by
  have hplace : ∀ c ∈ Nat.toDigits 10 n.natAbs, (c.isDigit || c == '_') = true := fun c hc => by
    rw [isDigit_of_mem_toDigits hc, Bool.true_or]
  have htake : (Nat.toDigits 10 n.natAbs).takeWhile (fun c => c.isDigit || c == '_') =
      Nat.toDigits 10 n.natAbs := List.takeWhile_eq_self_iff.2 hplace
  have hdrop : (Nat.toDigits 10 n.natAbs).dropWhile (fun c => c.isDigit || c == '_') = [] :=
    List.dropWhile_eq_nil_iff.2 hplace
  have hempty : (Nat.toDigits 10 n.natAbs).isEmpty = false :=
    List.isEmpty_eq_false_iff.2 Nat.toDigits_ne_nil
  unfold read
  rw [Numeral.plain_eq fun c hc => isDigit_of_mem_digits hc, splitSign_digits]
  simp only [htake, hdrop, Numeral.ungrouped?_eq Nat.underscore_not_in_toDigits, hempty,
    Numeral.value_toDigits, List.isEmpty_nil, Bool.not_true, Bool.or_self, if_neg (Nat.not_lt.2 h),
    Bool.false_eq_true, if_false, decide_eq_true_eq]
  split <;> congr 1 <;> omega

/-- An integer with few enough digits is written. -/
theorem write_eq_ok {n : Int} (h : (Nat.toDigits 10 n.natAbs).length ≤ digitLimit) :
    write n = .ok (digits n) := by
  rw [write, if_neg (by omega)]

/-- What is written is the digits of the integer, few enough to be read. -/
theorem write_inv {n : Int} {text : Text} (h : write n = .ok text) :
    text = digits n ∧ (Nat.toDigits 10 n.natAbs).length ≤ digitLimit := by
  unfold write at h
  split at h
  · cases h
  · cases h
    exact ⟨rfl, by omega⟩

/-- The least number that is not written is no small one. -/
theorem two_lt_limit : 2 < 10 ^ digitLimit :=
  Nat.lt_of_lt_of_le (show 2 < 10 ^ 1 by decide) (Nat.pow_le_pow_right (by decide) (by decide))

/-- A number of too many digits is not written. -/
theorem write_eq_error {n : Nat} (h : 10 ^ digitLimit ≤ n) :
    write n = .error (.invalid .integerLength) := by
  refine if_pos ?_
  rw [Int.natAbs_natCast]
  by_contra! hshort
  exact absurd ((Nat.length_toDigits_le_iff (by decide) (by decide)).1 hshort) (Nat.not_lt.2 h)

/-- Any other number is written. -/
theorem write_natCast {n : Nat} (h : n < 10 ^ digitLimit) : write n = .ok (digits n) := by
  refine write_eq_ok ?_
  rw [Int.natAbs_natCast]
  exact (Nat.length_toDigits_le_iff (by decide) (by decide)).2 h

/-- Writing fails for the number of digits only. -/
theorem write_error_inv {n : Int} {e : Error} (h : write n = .error e) :
    e = .invalid .integerLength := by
  unfold write at h
  split at h
  · cases h
    rfl
  · cases h

end Integer

end Songsmith
