import Songsmith.Chord.Name
import Songsmith.Text.Letter
import Songsmith.Proofs.Text.Parts
import Mathlib.Data.Fintype.Basic

/-!
# Names of chords

A chord that has been read from a name is written with a name of its own: the sharp name of its
pitch class, and the sign for minor. That name is read as the same pitch class and quality
(`Chord.Named.exists_name`), whatever the octave. It stands in a chord pattern as a literal, because
it begins with a letter.
-/

namespace Songsmith

namespace Chord

/-- The chord has a pitch class within one octave and a quality that names can say. -/
structure Named (c : Chord) : Prop where
  nonneg : 0 ≤ c.rootClass
  lt : c.rootClass < 12
  quality : c.quality = .major ∨ c.quality = .minor

/-! ## What names say -/

/-- A letter stands for a pitch class within the octave, and only `C` and `B` stand at its ends. -/
theorem letterClass?_bounds {letter : Char} {n : Int} (h : letterClass? letter = some n) :
    0 ≤ n ∧ n < 12 ∧ (n = 0 → letter = 'C') ∧ (n = 11 → letter = 'B') := by
  unfold letterClass? at h
  split at h
  all_goals
    cases h
    try decide

/-- A sharp takes no pitch class out of the octave: `B#` is a `C`. -/
theorem sharpClass?_bounds {letter : Char} {n : Int} (h : sharpClass? letter = some n) :
    0 ≤ n ∧ n < 12 := by
  unfold sharpClass? at h
  split at h
  · cases h
  · rename_i hletter
    obtain ⟨m, hm, rfl⟩ := Option.map_eq_some_iff.1 h
    obtain ⟨hlow, hhigh, -, hlast⟩ := letterClass?_bounds hm
    have : m ≠ 11 := fun heq => hletter (.inr (hlast heq))
    omega

/-- A flat takes no pitch class out of the octave: `Cb` is a `B`. -/
theorem flatClass?_bounds {letter : Char} {n : Int} (h : flatClass? letter = some n) :
    0 ≤ n ∧ n < 12 := by
  unfold flatClass? at h
  split at h
  · cases h
  · rename_i hletter
    obtain ⟨m, hm, rfl⟩ := Option.map_eq_some_iff.1 h
    obtain ⟨hlow, hhigh, hfirst, -⟩ := letterClass?_bounds hm
    have : m ≠ 0 := fun heq => hletter (.inl (hfirst heq))
    omega

/-- A suffix says one of the two qualities that names know. -/
theorem suffixQuality?_inv {text : Text} {q : Quality} (h : suffixQuality? text = some q) :
    q = .major ∨ q = .minor := by
  unfold suffixQuality? at h
  split at h
  · cases h
    exact .inl rfl
  · cases h
    exact .inr rfl
  · cases h

/-- The parts of a name are read one after the other. -/
theorem read_parts_inv {class? : Option Int} {quality? : Option Quality} {n : Int} {q : Quality}
    (h : (do some (← class?, ← quality?)) = some (n, q)) : class? = some n ∧ quality? = some q := by
  cases class? with
  | none => cases h
  | some n' =>
    cases quality? with
    | none => cases h
    | some q' =>
      cases h
      exact ⟨rfl, rfl⟩

/-- A name says a pitch class within one octave, and major or minor. -/
theorem nameParts?_inv {text : Text} {rootClass : Int} {quality : Quality}
    (h : nameParts? text = some (rootClass, quality)) :
    (0 ≤ rootClass ∧ rootClass < 12) ∧ (quality = .major ∨ quality = .minor) := by
  unfold nameParts? at h
  split at h
  · obtain ⟨hclass, hquality⟩ := read_parts_inv h
    exact ⟨sharpClass?_bounds hclass, suffixQuality?_inv hquality⟩
  · obtain ⟨hclass, hquality⟩ := read_parts_inv h
    exact ⟨flatClass?_bounds hclass, suffixQuality?_inv hquality⟩
  · obtain ⟨hclass, hquality⟩ := read_parts_inv h
    obtain ⟨hlow, hhigh, -⟩ := letterClass?_bounds hclass
    exact ⟨⟨hlow, hhigh⟩, suffixQuality?_inv hquality⟩
  · cases h

end Chord

/-- The chord of a name is named. -/
theorem ChordName.named_voiced (n : ChordName) (crossover : Int) : (n.voiced crossover).Named := by
  have hparts : Chord.nameParts? (Text.trim n.text) = some (n.parts.1, n.parts.2) :=
    (Option.some_get n.valid).symm
  obtain ⟨hclass, hquality⟩ := Chord.nameParts?_inv hparts
  exact ⟨hclass.1, hclass.2, hquality⟩

/-! ## Names that are written -/

namespace Chord

/-- A written name is read as the pitch class and the quality it was written for, begins with a
letter, and has no blanks in front. -/
structure Spells (text : Text) (rootClass : Int) (quality : Quality) : Prop where
  parts : nameParts? (Text.trim text) = some (rootClass, quality)
  letter : text.head?.any Text.isLetter = true
  tight : text.dropWhile Text.isBlankChar = text

/-- Every pitch class has a spelling in each of the two qualities, which is read as just that. -/
theorem spells_noteName (rootClass : Fin 12) (quality : Quality)
    (h : quality = .major ∨ quality = .minor) :
    Spells (noteName (rootClass : Nat) ++ if quality = .minor then ['m'] else [])
      (rootClass : Nat) quality := by
  rcases h with rfl | rfl
  · refine ⟨?_, ?_, ?_⟩
    all_goals
      revert rootClass
      decide
  · refine ⟨?_, ?_, ?_⟩
    all_goals
      revert rootClass
      decide

/-- The name of a chord is read as its own pitch class and quality. -/
theorem Named.spells {c : Chord} (h : c.Named) : Spells c.name c.rootClass c.quality := by
  obtain ⟨n, hn⟩ := Int.eq_ofNat_of_zero_le h.nonneg
  have hlt := h.lt
  rw [hn] at hlt
  have := spells_noteName ⟨n, by omega⟩ c.quality h.quality
  rw [name, hn]
  exact this

/-- The name of a chord that can be named means that chord again. -/
theorem Named.exists_name {c : Chord} (h : c.Named) :
    ∃ n : ChordName, n.text = c.name ∧ n.parts = (c.rootClass, c.quality) := by
  have hparts := h.spells.parts
  refine ⟨⟨c.name, by rw [hparts]; rfl⟩, rfl, ?_⟩
  simp only [ChordName.parts, hparts, Option.get_some]

end Chord

end Songsmith
