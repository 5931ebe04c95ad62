import Songsmith.Beats
import Songsmith.Proofs.Number.Integer
import Mathlib.Algebra.Order.Field.Power
import Mathlib.Data.Rat.Floor
import Mathlib.Tactic.FieldSimp
import Mathlib.Tactic.Linarith

/-!
# Numbers that binary floating point holds exactly

Rounding to nearest keeps a number that is a multiple of the spacing around it
(`Binary64.nearest?_eq_self`). Half of a natural number below `2 ^ 53` is one
(`Binary64.nearest?_half`), because the spacing around a number below `2 ^ 52` is at most one half.
So a length of fewer than `2 ^ 52` ticks, written as beats of one tick each, is converted to itself
(`Beats.ticks?_natCast`, `RealText.readFinite?_digits`).
-/

namespace Songsmith

/-- Nothing is rounded at an integer. -/
theorem roundHalfEven_intCast (n : Int) : roundHalfEven n = n := by
  simp [roundHalfEven, roundQuotient]

namespace Binary64

/-- A power of two is what it is called. -/
theorem twoPow_eq_zpow (e : Int) : twoPow e = (2 : Rat) ^ e := by
  unfold twoPow
  split
  · rename_i h
    obtain ⟨n, rfl⟩ := Int.eq_ofNat_of_zero_le h
    simp
  · rename_i h
    obtain ⟨n, rfl⟩ : ∃ n : Nat, e = -n := ⟨e.natAbs, by omega⟩
    simp [Rat.mkRat_eq_div]

/-- A positive number is its own absolute value. -/
theorem abs_of_pos {x : Rat} (h : 0 < x) : x.abs = x := Rat.abs_of_nonneg h.le

/-- The power of two that is found below a number is not above it. -/
theorem twoPow_floorLog2_le {x : Rat} (h : 0 < x) : twoPow (floorLog2 x) ≤ x := by
  unfold floorLog2
  simp only [abs_of_pos h]
  split
  · assumption
  · -- One less than the difference of the logarithms is always low enough.
    have hnum : 0 < x.num := Rat.num_pos.2 h
    have hlow : (2 : Rat) ^ (Nat.log2 x.num.natAbs : Int) ≤ x.num := by
      have := Nat.log2_self_le (n := x.num.natAbs) (by omega)
      have hle : ((2 ^ Nat.log2 x.num.natAbs : Nat) : Int) ≤ x.num := by omega
      rw [zpow_natCast]
      exact_mod_cast hle
    have hhigh : (x.den : Rat) < (2 : Rat) ^ ((Nat.log2 x.den : Int) + 1) := by
      have := Nat.lt_log2_self (n := x.den)
      exact_mod_cast this
    have hden : (0 : Rat) < x.den := Nat.cast_pos.2 x.den_pos
    rw [twoPow_eq_zpow]
    calc (2 : Rat) ^ ((Nat.log2 x.num.natAbs : Int) - Nat.log2 x.den - 1)
        = 2 ^ (Nat.log2 x.num.natAbs : Int) / 2 ^ ((Nat.log2 x.den : Int) + 1) := by
          rw [sub_sub, zpow_sub₀ two_ne_zero]
      _ ≤ x.num / x.den := div_le_div₀ (Int.cast_nonneg hnum.le) hlow hden hhigh.le
      _ = x := Rat.num_div_den x

/-- The exponent of a number below a power of two is below that of the power. -/
theorem floorLog2_lt {x : Rat} {n : Int} (h : 0 < x) (hlt : x < (2 : Rat) ^ n) :
    floorLog2 x < n := by
  have hle := twoPow_floorLog2_le h
  rw [twoPow_eq_zpow] at hle
  exact (zpow_lt_zpow_iff_right₀ one_lt_two).1 (hle.trans_lt hlt)

/-- A number that is a multiple of the spacing around it is kept, unless it is too large. -/
theorem nearest?_eq_self {x : Rat} (k : Int) (hk : x = k * twoPow (spacingExponent x))
    (hlt : x.abs < twoPow 1024) : nearest? x = some x := by
  have hne : twoPow (spacingExponent x) ≠ 0 := by
    rw [twoPow_eq_zpow]
    exact zpow_ne_zero _ two_ne_zero
  have hquotient : x / twoPow (spacingExponent x) = k := (div_eq_iff hne).2 hk
  simp only [nearest?, rounded, hquotient, roundHalfEven_intCast, ← hk, if_pos hlt]

/-- Half of a natural number of at most 53 binary places is kept. -/
theorem nearest?_half {n : Nat} (hpos : 0 < n) (hlt : n < 2 ^ 53) :
    nearest? ((n : Rat) / 2) = some ((n : Rat) / 2) := by
  have hx : 0 < (n : Rat) / 2 := by positivity
  have hsmall : (n : Rat) / 2 < (2 : Rat) ^ (52 : Int) := by
    have : (n : Rat) < 2 ^ 53 := by exact_mod_cast hlt
    rw [div_lt_iff₀ two_pos]
    norm_num at this ⊢
    exact this
  obtain ⟨j, hj⟩ : ∃ j : Nat, spacingExponent ((n : Rat) / 2) = -(j + 1 : Nat) := by
    have := floorLog2_lt hx hsmall
    exact ⟨(-spacingExponent ((n : Rat) / 2) - 1).toNat, by unfold spacingExponent; omega⟩
  refine nearest?_eq_self ((n * 2 ^ j : Nat) : Int) ?_ ?_
  · rw [hj, twoPow_eq_zpow, zpow_neg, zpow_natCast, pow_succ]
    push_cast
    field_simp
  · rw [abs_of_pos hx, twoPow_eq_zpow]
    exact hsmall.trans_le (zpow_le_zpow_right₀ one_le_two (by decide))

/-- A natural number of at most 52 binary places is kept. -/
theorem nearest?_natCast {n : Nat} (hpos : 0 < n) (hlt : n < 2 ^ 52) :
    nearest? (n : Rat) = some (n : Rat) := by
  have := nearest?_half (n := 2 * n) (by omega) (by omega)
  rwa [Nat.cast_mul, Nat.cast_two, mul_div_cancel_left₀ _ two_ne_zero] at this

end Binary64

namespace Beats

/-- As many beats of one tick each as can be held exactly are as many ticks. -/
theorem ticks?_natCast {n : Nat} (hpos : 0 < n) (hlt : n < 2 ^ 52) :
    ticks? (n : Rat) 1 = some (n : Int) := by
  have hone : Binary64.nearest? ((1 : Int) : Rat) = some 1 := by
    simpa using Binary64.nearest?_natCast (n := 1) (by decide) (by decide)
  have hproduct : Binary64.mul? (n : Rat) 1 = some (n : Rat) := by
    rw [Binary64.mul?, mul_one, Binary64.nearest?_natCast hpos hlt]
  have hsum : Binary64.add? (n : Rat) (1 / 2) = some ((n : Rat) + 1 / 2) := by
    have hhalf : (n : Rat) + 1 / 2 = ((2 * n + 1 : Nat) : Rat) / 2 := by
      push_cast
      ring
    rw [Binary64.add?, hhalf, Binary64.nearest?_half (by omega) (by omega)]
  have hfloor : truncate ((n : Rat) + 1 / 2) = n := by
    have hnum : 0 ≤ ((n : Rat) + 1 / 2).num := Rat.num_nonneg.2 (by positivity)
    rw [truncate, Int.tdiv_eq_ediv_of_nonneg hnum, ← Rat.floor_def', Int.floor_eq_iff]
    constructor
    · push_cast
      linarith
    · push_cast
      linarith
  simp only [ticks?, hone, hproduct, hsum, hfloor, Option.bind_eq_bind, Option.bind_some]

end Beats

/-! ## Written numbers -/

/-- A digit stays one in lower case. -/
theorem Text.isDigit_toLower {c : Char} (h : c.isDigit = true) : c.toLower.isDigit = true := by
  obtain ⟨d, hd, rfl⟩ := exists_digitChar h
  revert d
  decide

/-- No word that stands for a number begins with a digit. -/
theorem Text.ofList_toLower_ne {digits : Text} (hne : digits ≠ [])
    (h : ∀ c ∈ digits, c.isDigit = true) {letter : Char} (hletter : letter.isDigit = false)
    (word : Text) :
    String.ofList (digits.map Char.toLower) ≠ String.ofList (letter :: word) := by
  obtain ⟨c, digits, rfl⟩ := List.exists_cons_of_ne_nil hne
  intro heq
  have hhead := (List.cons.inj (String.ofList_injective heq)).1
  have := isDigit_toLower (h c List.mem_cons_self)
  rw [hhead, hletter] at this
  cases this

namespace Decimal

/-- Digits alone say an integer. -/
theorem readUnsigned?_digits {digits : Text} (hne : digits ≠ [])
    (h : ∀ c ∈ digits, c.isDigit = true) (negative : Bool) :
    readUnsigned? negative digits = some ⟨negative, Numeral.value digits, 0⟩ := by
  have htake : digits.takeWhile Char.isDigit = digits := List.takeWhile_eq_self_iff.2 h
  have hdrop : digits.dropWhile Char.isDigit = [] := List.dropWhile_eq_nil_iff.2 h
  have hempty : digits.isEmpty = false := List.isEmpty_eq_false_iff.2 hne
  simp [readUnsigned?, htake, hdrop, hempty, readExponent?]

/-- An integer stands for the binary number nearest to it. -/
theorem nearest?_integer {n : Nat} (hne : n ≠ 0) :
    nearest? ⟨false, n, 0⟩ = Binary64.nearest? (n : Rat) := by
  have hlow : ¬ ((0 : Int) + (n.log2 / 3 + 1 : Nat) < -400) := by omega
  have hten : tenPow 0 = 1 := rfl
  simp only [nearest?, magnitude?, if_neg hne, if_neg hlow, hten, mul_one]
  simp

end Decimal

/-- The digits of a number are read as the binary number nearest to it. -/
theorem RealText.readFinite?_digits {n : Nat} (hne : n ≠ 0) :
    readFinite? (Integer.digits n) = Binary64.nearest? (n : Rat) := by
  have hdigit : ∀ c ∈ Integer.digits n, c.isDigit = true := fun c =>
    Integer.isDigit_of_mem_digits_natCast
  have hnil := Integer.digits_natCast_ne_nil n
  have hline : '_' ∉ Integer.digits n := fun hmem => absurd (hdigit _ hmem) (by decide)
  have hinf := Text.ofList_toLower_ne hnil hdigit (show 'i'.isDigit = false from rfl) ['n', 'f']
  have hinfinity := Text.ofList_toLower_ne hnil hdigit (show 'i'.isDigit = false from rfl)
    ['n', 'f', 'i', 'n', 'i', 't', 'y']
  have hnan := Text.ofList_toLower_ne hnil hdigit (show 'n'.isDigit = false from rfl) ['a', 'n']
  have hread : read? (Integer.digits n) = some (.finite ⟨false, n, 0⟩) := by
    rw [read?, Numeral.plain_eq fun c hc => .inl (hdigit c hc), Numeral.ungrouped?_eq hline,
      Option.bind_some, Numeral.splitSign_of_isDigit hdigit]
    simp only
    rw [if_neg (not_or.2 ⟨hinf, hinfinity⟩), if_neg hnan,
      Decimal.readUnsigned?_digits hnil hdigit, Integer.digits_natCast, Numeral.value_toDigits,
      Option.map_some]
  rw [readFinite?, hread]
  exact Decimal.nearest?_integer hne

end Songsmith
