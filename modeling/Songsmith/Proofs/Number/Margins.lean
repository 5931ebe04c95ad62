import Songsmith.Number.Decimal
import Songsmith.Proofs.Number.Integer
import Songsmith.Proofs.Outcome

/-!
# Numbers between blanks

A number may stand between blanks, and so it is read the same after all blanks around it have been
taken away (`Integer.read_trim`, `RealText.readFinite?_trim`). The two kinds of blanks differ: the
four separators are blanks of a text and no margins of a number. But a text that is read has no
blanks of any kind inside its margins (`Integer.solid_of_read`, `RealText.solid_of_readFinite?`), so
the separators cannot stand around it.
-/

namespace Songsmith

namespace Text

/-- No digit of any script is a blank. -/
theorem isBlankChar_of_isDecimalDigit {c : Char} (h : isDecimalDigit c = true) :
    isBlankChar c = false := by
  rw [Bool.eq_false_iff]
  intro hblank
  unfold isDecimalDigit digitValue? at h
  unfold isBlankChar at hblank
  split at h
  · rename_i hlow
    rw [if_pos hlow] at hblank
    split at h
    · rename_i hdigit
      have hzero : '0'.toNat ≤ c.toNat := hdigit.1
      have : '0'.toNat = 48 := rfl
      have : c ≠ ' ' := by
        rintro rfl
        exact absurd hzero (by decide)
      simp only [this, decide_false, Bool.false_or, Bool.or_eq_true, Bool.and_eq_true,
        decide_eq_true_eq] at hblank
      omega
    · cases h
  · rename_i hhigh
    rw [if_neg hhigh] at hblank
    -- no range of blanks meets a block of digits
    have hapart : ∀ r ∈ wideBlanks, ∀ start ∈ wideZeros, r.2 < start ∨ start + 10 ≤ r.1 := by
      decide
    obtain ⟨range, hrange, hin⟩ := List.any_eq_true.1 hblank
    rw [Option.isSome_map, List.find?_isSome] at h
    obtain ⟨start, hstart, hdigit⟩ := h
    simp only [Bool.and_eq_true, decide_eq_true_eq] at hin hdigit
    have := hapart range hrange start hstart
    omega

end Text

namespace Numeral

/-- A margin is blank. -/
theorem isBlankChar_of_isMargin {c : Char} (h : isMargin c = true) :
    Text.isBlankChar c = true := by
  rw [isMargin, Bool.and_eq_true] at h
  exact h.1

/-- A text whose plain form has no blanks has none inside its margins. -/
theorem tight_of_solid_plain {text : Text} (h : Text.Solid (plain text)) :
    Text.Tight Text.isBlankChar (Text.trimBy isMargin text) := by
  have hblank : ∀ c ∈ Text.trimBy isMargin text, Text.isBlankChar c = false := by
    intro c hc
    have hplain := (h _ (List.mem_map_of_mem hc)).1
    cases hdigit : Text.digitValue? c with
    | none => simpa only [hdigit] using hplain
    | some d =>
      refine Text.isBlankChar_of_isDecimalDigit ?_
      rw [Text.isDecimalDigit, hdigit]
      rfl
  exact ⟨fun c hc => hblank c (List.mem_of_head? hc),
    fun c hc => hblank c (List.mem_of_getLast? hc)⟩

/-- Trimming does not change the plain form of a text without blanks inside its margins. -/
theorem plain_trim {text : Text} (h : Text.Solid (plain text)) :
    plain (Text.trim text) = plain text := by
  have htrim : Text.trim text = Text.trimBy isMargin text :=
    Text.trimBy_eq_of_tight (fun _ => isBlankChar_of_isMargin) (tight_of_solid_plain h)
  rw [htrim, plain, (Text.tight_trimBy isMargin text).trimBy_eq]
  rfl

/-! ## Parts of numbers -/

/-- A digit stands in a text without blanks and commas. -/
theorem solid_of_isDigit {digits : Text} (h : ∀ c ∈ digits, c.isDigit = true) :
    Text.Solid digits := by
  intro c hc
  refine ⟨Text.isBlankChar_of_isDigit (h c hc), ?_⟩
  rintro rfl
  exact absurd (h _ hc) (by decide)

/-- A sign in front of a solid text leaves it solid. -/
theorem solid_of_splitSign {text : Text} (h : Text.Solid (splitSign text).2) :
    Text.Solid text := by
  unfold splitSign at h
  split at h
  · exact .cons (by decide) h
  · exact .cons (by decide) h
  · exact h

/-- Low lines between digits leave a text solid. -/
theorem solid_of_ungrouped? {text digits : Text} {afterDigit : Bool}
    (h : ungrouped? afterDigit text = some digits) (hdigits : Text.Solid digits) :
    Text.Solid text := by
  induction text generalizing afterDigit digits with
  | nil => exact Text.solid_nil
  | cons c text ih =>
    unfold ungrouped? at h
    split at h
    · rename_i hnil
      cases hnil
    · rename_i hcons
      cases hcons
      refine .cons (by decide) ?_
      split at h
      · split at h
        · exact ih h hdigits
        · cases h
      · exact Text.solid_nil
    · rename_i hcons
      cases hcons
      obtain ⟨rest, hrest, rfl⟩ := Option.map_eq_some_iff.1 h
      exact .cons (hdigits c List.mem_cons_self)
        (ih hrest fun d hd => hdigits d (List.mem_cons_of_mem _ hd))

end Numeral

namespace Integer

/-- The plain form of a text that is read as an integer has no blanks. -/
theorem solid_of_read {text : Text} {n : Int} (h : read text = .ok n) :
    Text.Solid (Numeral.plain text) := by
  refine Numeral.solid_of_splitSign ?_
  unfold read at h
  generalize hsplit : Numeral.splitSign (Numeral.plain text) = split at h
  obtain ⟨negative, body⟩ := split
  simp only at h
  split at h
  · cases h
  · split at h
    · cases h
    · split at h
      · cases h
      · rename_i hrest
        simp only [Bool.or_eq_true, Bool.not_eq_true', not_or, Bool.not_eq_false,
          List.isEmpty_iff, List.dropWhile_eq_nil_iff] at hrest
        intro c hc
        rcases hrest.2 c hc with hdigit | hline
        · have hdigits : ∀ d ∈ [c], d.isDigit = true := by simpa using hdigit
          exact Numeral.solid_of_isDigit hdigits c List.mem_cons_self
        · rw [eq_of_beq hline]
          decide

/-- An integer is read the same without the blanks around it. -/
theorem read_trim {text : Text} {n : Int} (h : read text = .ok n) :
    read (Text.trim text) = .ok n := by
  have hplain := Numeral.plain_trim (solid_of_read h)
  unfold read at h ⊢
  rw [hplain]
  generalize Numeral.splitSign (Numeral.plain text) = split at h ⊢
  obtain ⟨negative, body⟩ := split
  simp only at h ⊢
  split at h
  · cases h
  · split at h
    · cases h
    · split at h
      · cases h
      · rename_i hlimit hrest
        rw [if_neg hlimit, if_neg hrest]
        exact h

end Integer

namespace Decimal

/-- An exponent that is read is solid. -/
theorem solid_of_readExponent? {text : Text} {e : Int} (h : readExponent? text = some e) :
    Text.Solid text := by
  unfold readExponent? at h
  split at h
  · exact Text.solid_nil
  · rename_i mark rest
    simp only at h
    split at h
    · rename_i hmark
      simp only [Bool.and_eq_true, Bool.or_eq_true, beq_iff_eq, List.all_eq_true] at hmark
      refine .cons ?_ (Numeral.solid_of_splitSign (Numeral.solid_of_isDigit hmark.2))
      rcases hmark.1.1 with rfl | rfl <;> decide
    · cases h

/-- A number without its sign is solid where it is read. -/
theorem solid_of_readUnsigned? {negative : Bool} {text : Text} {d : Decimal}
    (h : readUnsigned? negative text = some d) : Text.Solid text := by
  have hdigits : ∀ {t : Text}, Text.Solid (t.takeWhile Char.isDigit) := fun {t} =>
    Numeral.solid_of_isDigit fun c hc => List.mem_takeWhile_imp hc
  rw [← List.takeWhile_append_dropWhile (p := Char.isDigit) (l := text)]
  refine hdigits.append ?_
  unfold readUnsigned? at h
  simp only at h
  split at h
  · rename_i rest hrest
    split at h
    · cases h
    · obtain ⟨e, he, -⟩ := Option.map_eq_some_iff.1 h
      rw [hrest, ← List.takeWhile_append_dropWhile (p := Char.isDigit) (l := rest)]
      exact .cons (by decide) (hdigits.append (solid_of_readExponent? he))
  · split at h
    · cases h
    · obtain ⟨e, he, -⟩ := Option.map_eq_some_iff.1 h
      exact solid_of_readExponent? he

end Decimal

namespace RealText

/-- The plain form of a text that is read as a finite number has no blanks. -/
theorem solid_of_readFinite? {text : Text} {x : Rat} (h : readFinite? text = some x) :
    Text.Solid (Numeral.plain text) := by
  unfold readFinite? at h
  split at h
  · rename_i d hd
    obtain ⟨digits, hdigits, hd⟩ := Option.bind_eq_some_iff.1 hd
    refine Numeral.solid_of_ungrouped? hdigits (Numeral.solid_of_splitSign ?_)
    generalize Numeral.splitSign digits = split at hd ⊢
    obtain ⟨negative, body⟩ := split
    simp only at hd
    split at hd
    · cases hd
    · split at hd
      · cases hd
      · obtain ⟨d', hd', -⟩ := Option.map_eq_some_iff.1 hd
        exact Decimal.solid_of_readUnsigned? hd'
  · cases h

/-- A finite number is read the same without the blanks around it. -/
theorem readFinite?_trim {text : Text} {x : Rat} (h : readFinite? text = some x) :
    readFinite? (Text.trim text) = some x := by
  have hplain := Numeral.plain_trim (solid_of_readFinite? h)
  unfold readFinite? read? at h ⊢
  rwa [hplain]

end RealText

end Songsmith
