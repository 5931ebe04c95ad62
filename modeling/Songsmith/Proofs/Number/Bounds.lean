import Songsmith.Proofs.Number.Exact

/-!
# Rounding keeps bounds

A number between two integers is rounded to an integer between them (`le_roundHalfEven`,
`roundHalfEven_le`). A power of two is a multiple of the spacing around every smaller number, so
that a number between zero and a power of two in the range of binary floating point has a nearest
binary number, between zero and that power (`Binary64.nearest?_bounds`).
-/

namespace Songsmith

/-! ## Integers -/

section
variable {n k : Int} {d : Nat}

/-- Rounding does not fall below an integer that the quotient is not below. -/
theorem le_roundQuotient (hd : 0 < d) (h : k * d ≤ n) : k ≤ roundQuotient n d := by
  have hfloor : k ≤ n / d := (Int.le_ediv_iff_mul_le (by omega)).2 h
  simp only [roundQuotient]
  split
  · exact hfloor
  · split
    · omega
    · split <;> omega

/-- Rounding does not rise above an integer that the quotient is not above. -/
theorem roundQuotient_le (hd : 0 < d) (h : n ≤ k * d) : roundQuotient n d ≤ k := by
  have hsplit := Int.mul_ediv_add_emod n d
  have hrest : 0 ≤ n % d := Int.emod_nonneg n (by omega)
  have hfloor : n / d ≤ k := Int.ediv_le_of_le_mul (by omega) h
  simp only [roundQuotient]
  rcases Int.lt_or_eq_of_le hfloor with hlt | heq
  · split
    · exact hfloor
    · split
      · omega
      · split <;> omega
  · -- Nothing is left over, so it is rounded down.
    have hzero : n % d = 0 := by
      rw [heq, Int.mul_comm] at hsplit
      omega
    rw [hzero, if_pos (by omega)]
    exact hfloor

end

/-- A rounded number is at least every integer that the number is at least. -/
theorem le_roundHalfEven {x : Rat} {k : Int} (h : k ≤ x) : k ≤ roundHalfEven x := by
  refine le_roundQuotient x.den_pos ?_
  rw [← Rat.num_div_den x, le_div_iff₀ (Nat.cast_pos.2 x.den_pos)] at h
  exact_mod_cast h

/-- A rounded number is at most every integer that the number is at most. -/
theorem roundHalfEven_le {x : Rat} {k : Int} (h : x ≤ k) : roundHalfEven x ≤ k := by
  refine roundQuotient_le x.den_pos ?_
  rw [← Rat.num_div_den x, div_le_iff₀ (Nat.cast_pos.2 x.den_pos)] at h
  exact_mod_cast h

/-! ## Binary numbers -/

namespace Binary64

/-- The spacing around a number is not greater than a power of two above it. -/
theorem spacingExponent_le {x : Rat} {n : Nat} (h : 0 ≤ x) (hx : x ≤ 2 ^ n) :
    spacingExponent x ≤ n := by
  have hlog : floorLog2 x ≤ n := by
    rcases h.eq_or_lt with rfl | hpos
    · have : floorLog2 0 = -1 := by decide +kernel
      omega
    · have hle := (twoPow_floorLog2_le hpos).trans hx
      rw [twoPow_eq_zpow, ← zpow_natCast] at hle
      exact (zpow_le_zpow_iff_right₀ one_lt_two).1 hle
  unfold spacingExponent
  omega

/-- A power of two is positive. -/
theorem twoPow_pos (e : Int) : 0 < twoPow e := by
  rw [twoPow_eq_zpow]
  positivity

/-- A power of two is a multiple of every lesser one. -/
theorem exists_mul_twoPow {e n : Int} (h : e ≤ n) : ∃ k : Int, (2 : Rat) ^ n = k * twoPow e := by
  obtain ⟨places, rfl⟩ := Int.exists_add_of_le h
  refine ⟨2 ^ places, ?_⟩
  rw [twoPow_eq_zpow, zpow_add₀ two_ne_zero, zpow_natCast, mul_comm]
  push_cast
  rfl

/-- The number nearest to `x`, also if it is too large. -/
def roundedValue (x : Rat) : Rat := ((rounded x).1 : Rat) * twoPow (rounded x).2

/-- The nearest number, where there is one, is the rounded value. -/
theorem eq_roundedValue_of_nearest? {x y : Rat} (h : nearest? x = some y) :
    y = roundedValue x := by
  unfold nearest? at h
  dsimp only at h
  split at h
  · exact (Option.some.inj h).symm
  · cases h

/-- A power of two that is a multiple of the spacing around a number is no lesser than what the
number is rounded to, if it is no lesser than the number. -/
theorem roundedValue_le {x : Rat} {n : Int} (hn : spacingExponent x ≤ n) (h : x ≤ (2 : Rat) ^ n) :
    roundedValue x ≤ (2 : Rat) ^ n := by
  have hspacing := twoPow_pos (spacingExponent x)
  obtain ⟨k, hk⟩ := exists_mul_twoPow hn
  rw [hk] at h ⊢
  refine mul_le_mul_of_nonneg_right ?_ hspacing.le
  exact_mod_cast roundHalfEven_le ((div_le_iff₀ hspacing).2 h)

/-- Rounding does not fall below a power of two that is a multiple of the spacing. -/
theorem le_roundedValue {x : Rat} {n : Int} (hn : spacingExponent x ≤ n) (h : (2 : Rat) ^ n ≤ x) :
    (2 : Rat) ^ n ≤ roundedValue x := by
  have hspacing := twoPow_pos (spacingExponent x)
  obtain ⟨k, hk⟩ := exists_mul_twoPow hn
  rw [hk] at h ⊢
  refine mul_le_mul_of_nonneg_right ?_ hspacing.le
  exact_mod_cast le_roundHalfEven ((le_div_iff₀ hspacing).2 h)

/-- What is not negative is not rounded to anything negative. -/
theorem roundedValue_nonneg {x : Rat} (h : 0 ≤ x) : 0 ≤ roundedValue x := by
  have hspacing := twoPow_pos (spacingExponent x)
  have hzero : (0 : Int) ≤ roundHalfEven (x / twoPow (spacingExponent x)) :=
    le_roundHalfEven (by simpa using div_nonneg h hspacing.le)
  exact mul_nonneg (by exact_mod_cast hzero) hspacing.le

/-- Between zero and a power of two there is a number nearest to each number. -/
theorem nearest?_bounds {x : Rat} {n : Nat} (h : 0 ≤ x) (hx : x ≤ 2 ^ n) (hn : n < 1024) :
    ∃ y, nearest? x = some y ∧ 0 ≤ y ∧ y ≤ 2 ^ n := by
  have hnonneg := roundedValue_nonneg h
  have hle : roundedValue x ≤ 2 ^ n := by
    rw [← zpow_natCast] at hx ⊢
    exact roundedValue_le (spacingExponent_le h (by rwa [← zpow_natCast])) hx
  have hrange : (2 : Rat) ^ n < twoPow 1024 := by
    rw [twoPow_eq_zpow, ← zpow_natCast]
    exact zpow_lt_zpow_right₀ one_lt_two (by omega)
  have hlt : (roundedValue x).abs < twoPow 1024 := by
    rw [Rat.abs_of_nonneg hnonneg]
    exact hle.trans_lt hrange
  exact ⟨roundedValue x, if_pos hlt, hnonneg, hle⟩

end Binary64

end Songsmith
