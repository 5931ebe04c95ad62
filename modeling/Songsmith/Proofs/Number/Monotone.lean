import Songsmith.Proofs.Number.Bounds

/-!
# Rounding keeps the order

Of two numbers that are not negative, the greater one is rounded to no lesser binary number
(`Binary64.nearest?_mono`). Where both have the same spacing, this is so of the multiples of it that
they are rounded to (`roundHalfEven_mono`). Where the spacings differ, a power of two lies between
the numbers, which is a multiple of both spacings and which neither is rounded beyond
(`Binary64.roundedValue_le`, `Binary64.le_roundedValue`).
-/

namespace Songsmith

/-! ## Integers -/

/-- A rounded quotient is off by half at most. -/
theorem roundQuotient_bounds {d : Nat} (hd : 0 < d) (n : Int) :
    2 * n ≤ 2 * (roundQuotient n d * d) + d ∧ 2 * (roundQuotient n d * d) ≤ 2 * n + d := by
  have hsplit := Int.ediv_mul_add_emod n d
  have hrest : 0 ≤ n % d := Int.emod_nonneg n (by omega)
  have hlt : n % d < d := Int.emod_lt_of_pos n (by omega)
  have hnext : (n / d + 1) * d = n / d * d + d := by ring
  simp only [roundQuotient]
  split
  · omega
  · split
    · omega
    · split <;> omega

/-- A number is rounded to an integer that is at most one half away from it. -/
theorem roundHalfEven_bounds (x : Rat) :
    x ≤ roundHalfEven x + 1 / 2 ∧ roundHalfEven x - 1 / 2 ≤ x := by
  have hden : (0 : Rat) < x.den := Nat.cast_pos.2 x.den_pos
  have hnum : x * x.den = x.num := x.mul_den_eq_num
  obtain ⟨hlow, hhigh⟩ : 2 * (x.num : Rat) ≤ 2 * (roundHalfEven x * x.den) + x.den ∧
      2 * (roundHalfEven x * x.den : Rat) ≤ 2 * x.num + x.den := by
    exact_mod_cast roundQuotient_bounds x.den_pos x.num
  constructor
  · refine le_of_mul_le_mul_right ?_ hden
    linarith
  · refine le_of_mul_le_mul_right ?_ hden
    linarith

/-- Rounding to integers keeps the order. -/
theorem roundHalfEven_mono {x y : Rat} (h : x ≤ y) : roundHalfEven x ≤ roundHalfEven y := by
  by_contra hlt
  have hstep : (roundHalfEven y : Rat) + 1 ≤ roundHalfEven x := by
    exact_mod_cast Int.lt_iff_add_one_le.1 (not_le.1 hlt)
  obtain ⟨hx, hx'⟩ := roundHalfEven_bounds x
  obtain ⟨hy, hy'⟩ := roundHalfEven_bounds y
  -- Both numbers would have to lie half way between the two integers.
  obtain rfl : x = y := by linarith
  exact hlt (Int.le_refl _)

/-! ## Binary numbers -/

namespace Binary64

/-- No greater power of two is below a number than the one that is found. -/
theorem le_floorLog2 {x : Rat} {n : Int} (h : 0 < x) (hn : (2 : Rat) ^ n ≤ x) :
    n ≤ floorLog2 x := by
  have hnum : 0 < x.num := Rat.num_pos.2 h
  have hhigh : (x.num : Rat) < 2 ^ ((Nat.log2 x.num.natAbs : Int) + 1) := by
    have hlt : x.num < ((2 ^ (Nat.log2 x.num.natAbs + 1) : Nat) : Int) := by
      have := Nat.lt_log2_self (n := x.num.natAbs)
      omega
    exact_mod_cast hlt
  have hlow : (2 : Rat) ^ (Nat.log2 x.den : Int) ≤ x.den := by
    have := Nat.log2_self_le x.den_ne_zero
    rw [zpow_natCast]
    exact_mod_cast this
  have hlt : x < 2 ^ ((Nat.log2 x.num.natAbs : Int) - Nat.log2 x.den + 1) := by
    calc x = x.num / x.den := (Rat.num_div_den x).symm
      _ < 2 ^ ((Nat.log2 x.num.natAbs : Int) + 1) / 2 ^ (Nat.log2 x.den : Int) :=
        div_lt_div₀ hhigh hlow (by positivity) (by positivity)
      _ = 2 ^ ((Nat.log2 x.num.natAbs : Int) - Nat.log2 x.den + 1) := by
        rw [← zpow_sub₀ two_ne_zero]
        congr 1
        ring
  unfold floorLog2
  simp only [abs_of_pos h]
  split
  · have := (zpow_lt_zpow_iff_right₀ one_lt_two).1 (hn.trans_lt hlt)
    omega
  · rename_i hbelow
    rw [twoPow_eq_zpow, not_le] at hbelow
    have := (zpow_lt_zpow_iff_right₀ one_lt_two).1 (hn.trans_lt hbelow)
    omega

/-- Rounding keeps the order of numbers that are not negative: of those with one exponent since
their significands are rounded in order, and of others since there is a power of two between them.
-/
theorem roundedValue_mono {x y : Rat} (h : 0 ≤ x) (hxy : x ≤ y) :
    roundedValue x ≤ roundedValue y := by
  rcases h.eq_or_lt with rfl | hpos
  · have hzero : roundedValue 0 = 0 := by simp [roundedValue, rounded, roundHalfEven, roundQuotient]
    rw [hzero]
    exact roundedValue_nonneg hxy
  have hy := hpos.trans_le hxy
  have hlow := twoPow_floorLog2_le hpos
  have hpower := twoPow_floorLog2_le hy
  rw [twoPow_eq_zpow] at hlow hpower
  have hlog : floorLog2 x ≤ floorLog2 y := le_floorLog2 hy (hlow.trans hxy)
  by_cases hspacing : spacingExponent x = spacingExponent y
  · have hunit := twoPow_pos (spacingExponent y)
    simp only [roundedValue, rounded, hspacing]
    refine mul_le_mul_of_nonneg_right ?_ hunit.le
    exact_mod_cast roundHalfEven_mono (div_le_div_of_nonneg_right hxy hunit.le)
  · -- The least spacing of all is around the lesser number at most, so that the greater one is in
    -- a range of its own.
    have hgreater : floorLog2 x < floorLog2 y ∧ spacingExponent x ≤ floorLog2 y ∧
        spacingExponent y ≤ floorLog2 y := by
      unfold spacingExponent at hspacing ⊢
      omega
    obtain ⟨hlt, hx, hy⟩ := hgreater
    have hbelow : x ≤ (2 : Rat) ^ floorLog2 y := by
      by_contra habove
      have := le_floorLog2 hpos (not_le.1 habove).le
      omega
    exact (roundedValue_le hx hbelow).trans (le_roundedValue hy hpower)

/-- So does taking the nearest number, where there is one. -/
theorem nearest?_mono {x y a b : Rat} (h : 0 ≤ x) (hxy : x ≤ y) (hx : nearest? x = some a)
    (hy : nearest? y = some b) : a ≤ b := by
  rw [eq_roundedValue_of_nearest? hx, eq_roundedValue_of_nearest? hy]
  exact roundedValue_mono h hxy

/-- The nearest number to one that is not negative is not negative. -/
theorem nonneg_of_nearest? {x y : Rat} (h : 0 ≤ x) (hx : nearest? x = some y) : 0 ≤ y := by
  rw [eq_roundedValue_of_nearest? hx]
  exact roundedValue_nonneg h

end Binary64

end Songsmith
