import Songsmith.Chord.Voicing

/-!
# The nearest voicing

Of all whole octaves that a chord can be moved by, those that bring its root nearest to a reference
are one, or two on either side of a tritone, and one of them is smaller than the other
(`Chord.IsNearestShift`). `Chord.nearestTo` finds it among three candidates
(`Chord.nearestTo_optimal`). What makes three enough is that the shift found leaves a remainder of
at most six semitones, and at six of them lies on the side of zero (`Chord.Settled`): no other shift
comes nearer, and one that comes as near is larger.

A reference that is moved by octaves takes the voicing with it. The one exception follows from the
preference for the smaller shift: a reference a tritone away that is moved to the other side of the
chord leaves it an octave behind (`Chord.rootPitch_nearestTo_shifted`).
-/

namespace Songsmith.Chord

/-- The chord moved by whole octaves. -/
def shifted (c : Chord) (octaves : Int) : Chord := { c with octave := c.octave + octaves }

/-- No number of octaves brings the chord nearer to the reference, and none that brings it as near
is smaller. -/
structure IsNearestShift (c reference : Chord) (octaves : Int) : Prop where
  minimal : ∀ other, (c.shifted octaves).distance reference ≤ (c.shifted other).distance reference
  smallest : ∀ other,
    (c.shifted other).distance reference = (c.shifted octaves).distance reference →
      octaves.natAbs ≤ other.natAbs

/-- The second chord is the first one, voiced nearest to the reference. -/
structure Nearest (c reference near : Chord) : Prop where
  keeps : near.rootClass = c.rootClass ∧ near.quality = c.quality ∧ near.text = c.text
  distance_le : ∀ octaves, near.distance reference ≤ (c.shifted octaves).distance reference
  within : near.distance reference ≤ 6
  shifted_eq : ∃ octaves, near = c.shifted octaves ∧
    ∀ other, c.IsNearestShift reference other ↔ other = octaves
  unmoved : (∀ octaves, c.distance reference ≤ (c.shifted octaves).distance reference) → near = c
  again : near.nearestTo reference = near

/-! ## Shifts toward a difference -/

/-- What is left of a difference behind a shift is at most a tritone, and the shift does not go
beyond it to the far side of zero. -/
structure Settled (difference shift : Int) : Prop where
  low : -6 ≤ difference - 12 * shift
  high : difference - 12 * shift ≤ 6
  above : difference - 12 * shift = 6 → 0 ≤ shift
  below : difference - 12 * shift = -6 → shift ≤ 0

/-- The first shift comes nearer to the difference than the second, or as near and is no larger. -/
def AsGood (difference shift other : Int) : Prop :=
  (difference - 12 * shift).natAbs < (difference - 12 * other).natAbs ∨
    (difference - 12 * shift).natAbs = (difference - 12 * other).natAbs ∧
      shift.natAbs ≤ other.natAbs

/-- A shift as good as another is as good as all that the other one is as good as. -/
theorem AsGood.trans {difference first second third : Int} (h : AsGood difference first second)
    (h' : AsGood difference second third) : AsGood difference first third := by
  rcases h with h | ⟨h, hsize⟩
  · rcases h' with h' | ⟨h', -⟩
    · exact .inl (Nat.lt_trans h h')
    · exact .inl (by rwa [← h'])
  · rcases h' with h' | ⟨h', hsize'⟩
    · exact .inl (by rwa [h])
    · exact .inr ⟨h.trans h', Nat.le_trans hsize hsize'⟩

/-- The better of two shifts is as good as both. -/
theorem asGood_betterShift (difference best shift : Int) :
    AsGood difference (betterShift difference best shift) best ∧
      AsGood difference (betterShift difference best shift) shift := by
  simp only [betterShift, AsGood]
  split
  · constructor <;> omega
  · constructor <;> omega

/-- A shift that is as good as both shifts around the difference is settled. -/
theorem settled_of_asGood {difference shift : Int}
    (hfloor : AsGood difference shift (difference / 12))
    (hceil : AsGood difference shift (difference / 12 + 1)) : Settled difference shift := by
  unfold AsGood at hfloor hceil
  have hwithin : (difference - 12 * shift).natAbs ≤ 6 := by omega
  refine ⟨by omega, by omega, fun hsix => ?_, fun hsix => ?_⟩
  · have : difference / 12 = shift := by omega
    omega
  · have : difference / 12 + 1 = shift := by omega
    omega

/-- The shift that is computed leaves at most a tritone, on the right side. -/
theorem settled_nearestShift (difference : Int) : Settled difference (nearestShift difference) := by
  obtain ⟨-, hfloor⟩ := asGood_betterShift difference 0 (difference / 12)
  obtain ⟨hfirst, hceil⟩ := asGood_betterShift difference
    (betterShift difference 0 (difference / 12)) (difference / 12 + 1)
  exact settled_of_asGood (hfirst.trans hfloor) hceil

namespace Settled

variable {difference shift : Int}

/-- No other shift comes nearer. -/
theorem natAbs_le (h : Settled difference shift) (other : Int) :
    (difference - 12 * shift).natAbs ≤ (difference - 12 * other).natAbs := by
  have := h.low
  have := h.high
  omega

/-- Another shift that comes as near is larger. -/
theorem natAbs_lt (h : Settled difference shift) {other : Int}
    (heq : (difference - 12 * other).natAbs = (difference - 12 * shift).natAbs)
    (hne : other ≠ shift) : shift.natAbs < other.natAbs := by
  have := h.low
  have := h.high
  have := h.above
  have := h.below
  omega

end Settled

/-! ## Chords -/

section
variable {c reference : Chord} {octaves : Int}

/-- How far a chord is from the reference after some octaves. -/
theorem distance_shifted (c reference : Chord) (octaves : Int) :
    (c.shifted octaves).distance reference =
      (reference.rootPitch - c.rootPitch - 12 * octaves).natAbs := by
  simp only [distance, shifted, rootPitch]
  omega

/-- No octaves leave a chord where it is. -/
theorem shifted_zero (c : Chord) : c.shifted 0 = c := by
  rw [shifted, Int.add_zero]

/-- Moving toward a reference is a shift by whole octaves. -/
theorem nearestTo_eq_shifted (c reference : Chord) :
    c.nearestTo reference = c.shifted (nearestShift (reference.rootPitch - c.rootPitch)) := rfl

/-- There is one nearest shift, and it is the one that is computed. -/
theorem isNearestShift_iff :
    c.IsNearestShift reference octaves ↔
      octaves = nearestShift (reference.rootPitch - c.rootPitch) := by
  have hsettled := settled_nearestShift (reference.rootPitch - c.rootPitch)
  constructor
  · intro h
    have hminimal := h.minimal (nearestShift (reference.rootPitch - c.rootPitch))
    have hsmallest := h.smallest (nearestShift (reference.rootPitch - c.rootPitch))
    simp only [distance_shifted] at hminimal hsmallest
    have heq := Nat.le_antisymm hminimal (hsettled.natAbs_le octaves)
    refine Decidable.byContradiction fun hne => ?_
    exact Nat.not_le.2 (hsettled.natAbs_lt heq hne) (hsmallest heq.symm)
  · rintro rfl
    refine ⟨fun other => ?_, fun other heq => ?_⟩
    · rw [distance_shifted, distance_shifted]
      exact hsettled.natAbs_le other
    · rw [distance_shifted, distance_shifted] at heq
      by_cases hother : other = nearestShift (reference.rootPitch - c.rootPitch)
      · exact Nat.le_of_eq (by rw [hother])
      · exact Nat.le_of_lt (hsettled.natAbs_lt heq hother)

/-- The nearest voicing is at most a tritone away. -/
theorem distance_nearestTo_le (c reference : Chord) :
    (c.nearestTo reference).distance reference ≤ 6 := by
  have hsettled := settled_nearestShift (reference.rootPitch - c.rootPitch)
  have := hsettled.low
  have := hsettled.high
  rw [nearestTo_eq_shifted, distance_shifted]
  omega

/-- A chord that cannot be brought nearer stays where it is. -/
theorem nearestTo_eq_self
    (h : ∀ octaves, c.distance reference ≤ (c.shifted octaves).distance reference) :
    c.nearestTo reference = c := by
  have hzero : c.IsNearestShift reference 0 :=
    ⟨fun other => by rw [shifted_zero]; exact h other, fun other _ => Nat.zero_le _⟩
  rw [nearestTo_eq_shifted, ← isNearestShift_iff.1 hzero, shifted_zero]

end

/-- The chord that is found is the one nearest to the reference, and the least moved of two that are
as near. -/
theorem nearestTo_optimal (c reference : Chord) : Nearest c reference (c.nearestTo reference) := by
  have hsettled := settled_nearestShift (reference.rootPitch - c.rootPitch)
  have hminimal (octaves : Int) :
      (c.nearestTo reference).distance reference ≤ (c.shifted octaves).distance reference :=
    (isNearestShift_iff.2 rfl).minimal octaves
  refine ⟨⟨rfl, rfl, rfl⟩, hminimal, ?_, ?_, nearestTo_eq_self, ?_⟩
  · have := hsettled.low
    have := hsettled.high
    rw [nearestTo_eq_shifted, distance_shifted]
    omega
  · exact ⟨_, nearestTo_eq_shifted c reference, fun other => isNearestShift_iff⟩
  · -- A shift of the voiced chord is a shift of the chord itself.
    refine nearestTo_eq_self fun octaves => ?_
    have h := hminimal (nearestShift (reference.rootPitch - c.rootPitch) + octaves)
    rwa [shifted, ← Int.add_assoc] at h

/-- A tritone above and a tritone below are equally near to the reference. -/
example : (Chord.mk 6 .major (-1) []).nearestTo ⟨0, .major, 0, []⟩ = ⟨6, .major, -1, []⟩ ∧
    (Chord.mk 6 .major 0 []).nearestTo ⟨0, .major, 0, []⟩ = ⟨6, .major, 0, []⟩ := by decide

/-! ## Moving the reference -/

/-- The roots are a tritone apart, and moving the reference by octaves takes it from one side of the
chord to the other. -/
def PassedBy (c reference : Chord) (octaves : Int) : Prop :=
  (reference.rootPitch - c.rootPitch) % 12 = 6 ∧
    (reference.rootPitch < c.rootPitch ↔ c.rootPitch < (reference.shifted octaves).rootPitch)

instance (c reference : Chord) (octaves : Int) : Decidable (c.PassedBy reference octaves) :=
  inferInstanceAs (Decidable (_ ∧ (_ ↔ _)))

/-- An octave has twelve semitones. -/
theorem rootPitch_shifted (c : Chord) (octaves : Int) :
    (c.shifted octaves).rootPitch = c.rootPitch + 12 * octaves := by
  simp only [shifted, rootPitch]
  omega

/-- A difference that grows by octaves leaves the same remainder, unless that is a tritone and
changes its side: then the shift grows by one octave less. -/
theorem Settled.eq_add {difference shift octaves shift' : Int} (h : Settled difference shift)
    (h' : Settled (difference + 12 * octaves) shift') :
    shift' = shift +
      if difference % 12 = 6 ∧ (difference < 0 ↔ 0 < difference + 12 * octaves) then
        octaves - octaves.sign
      else octaves := by
  have := h.low
  have := h.high
  have := h.above
  have := h.below
  have := h'.low
  have := h'.high
  have := h'.above
  have := h'.below
  split
  · rcases Int.lt_trichotomy octaves 0 with hdown | rfl | hup
    · rw [Int.sign_eq_neg_one_of_neg hdown]
      omega
    · omega
    · rw [Int.sign_eq_one_of_pos hup]
      omega
  · omega

/-- A reference that is moved by octaves takes the nearest voicing with it, by as many octaves, or
by one less if it passes a chord a tritone away. -/
theorem rootPitch_nearestTo_shifted (c reference : Chord) (octaves : Int) :
    (c.nearestTo (reference.shifted octaves)).rootPitch =
      (c.nearestTo reference).rootPitch +
        12 * if c.PassedBy reference octaves then octaves - octaves.sign else octaves := by
  have hmoved : (reference.shifted octaves).rootPitch - c.rootPitch =
      reference.rootPitch - c.rootPitch + 12 * octaves := by
    rw [rootPitch_shifted]
    omega
  have hside : c.PassedBy reference octaves ↔
      (reference.rootPitch - c.rootPitch) % 12 = 6 ∧
        (reference.rootPitch - c.rootPitch < 0 ↔
          0 < reference.rootPitch - c.rootPitch + 12 * octaves) := by
    rw [PassedBy, ← hmoved]
    omega
  have hshift := (settled_nearestShift (reference.rootPitch - c.rootPitch)).eq_add
    (settled_nearestShift (reference.rootPitch - c.rootPitch + 12 * octaves))
  rw [nearestTo_eq_shifted, nearestTo_eq_shifted, hmoved, rootPitch_shifted, rootPitch_shifted,
    hshift, Int.mul_add, Int.add_assoc]
  simp only [hside]

/-- F sharp between two Cs is as near to either, and stays where it is. -/
theorem rootPitch_nearestTo_passed :
    let fSharp : Chord := ⟨6, .major, 0, []⟩
    let c : Chord := ⟨0, .major, 0, []⟩
    (fSharp.nearestTo (c.shifted 1)).rootPitch ≠ (fSharp.nearestTo c).rootPitch + 12 * 1 := by
  decide

end Songsmith.Chord
