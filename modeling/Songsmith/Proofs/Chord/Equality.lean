import Songsmith.Chord.Basic

/-!
# Equality of chords

Equal harmony and full equality are equivalence relations, and equal chords have equal harmony.
-/

namespace Songsmith.Chord

/-- Harmonies are the same when the pitch classes and the qualities are. -/
theorem sameHarmony_iff {c d : Chord} :
    c.sameHarmony d = true ↔ c.rootClass = d.rootClass ∧ c.quality = d.quality := by
  simp [sameHarmony]

/-- Equal chords have the same harmony in the same octave. -/
theorem same_iff {c d : Chord} :
    c.same d = true ↔ c.sameHarmony d = true ∧ c.octave = d.octave := by
  simp [same]

@[simp] theorem sameHarmony_refl (c : Chord) : c.sameHarmony c = true := by simp [sameHarmony]

@[simp] theorem same_refl (c : Chord) : c.same c = true := by simp [same]

/-- It does not matter which of two chords is compared with the other. -/
theorem sameHarmony_comm (c d : Chord) : c.sameHarmony d = d.sameHarmony c := by
  rw [Bool.eq_iff_iff, sameHarmony_iff, sameHarmony_iff, eq_comm, @eq_comm _ c.quality]

/-- Equality of chords is symmetric. -/
theorem same_comm (c d : Chord) : c.same d = d.same c := by
  rw [Bool.eq_iff_iff, same_iff, same_iff, sameHarmony_comm, @eq_comm _ c.octave]

/-- Chords of the same harmony as a third one have the same harmony. -/
theorem sameHarmony_trans {c d e : Chord} (h : c.sameHarmony d = true)
    (h' : d.sameHarmony e = true) : c.sameHarmony e = true := by
  rw [sameHarmony_iff] at *
  exact ⟨h.1.trans h'.1, h.2.trans h'.2⟩

/-- Equality of chords is transitive. -/
theorem same_trans {c d e : Chord} (h : c.same d = true) (h' : d.same e = true) :
    c.same e = true := by
  rw [same_iff] at *
  exact ⟨sameHarmony_trans h.1 h'.1, h.2.trans h'.2⟩

/-- Chords may be replaced by ones of the same harmony on both sides of a comparison. -/
theorem sameHarmony_congr {c c' d d' : Chord} (hc : c.sameHarmony c' = true)
    (hd : d.sameHarmony d' = true) : c.sameHarmony d = c'.sameHarmony d' := by
  rw [sameHarmony_iff] at hc hd
  rw [Bool.eq_iff_iff, sameHarmony_iff, sameHarmony_iff, hc.1, hc.2, hd.1, hd.2]

/-- Equal chords are equal to the same chords. -/
theorem same_congr_left {c d : Chord} (h : c.same d = true) (e : Chord) : c.same e = d.same e := by
  rw [Bool.eq_iff_iff]
  exact ⟨same_trans (same_comm c d ▸ h), same_trans h⟩

/-- Equality takes octaves into account on top of harmony. -/
theorem sameHarmony_of_same {c d : Chord} (h : c.same d = true) : c.sameHarmony d = true :=
  (same_iff.1 h).1

end Songsmith.Chord
