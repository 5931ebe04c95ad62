import Songsmith.Harmony.Resolution
import Songsmith.Proofs.Outcome
import Songsmith.Proofs.Text.Parts

/-!
# Chord tokens as texts

What stands in a chord pattern is read again where it is written: a resolved token is read as the
token with its name for a reference (`ResolvedToken.read_write`). Only the blanks in front of a
padded name are lost, unless a section mark stands before them (`ResolvedToken.reread`). That
requires lengths as they come from a token (`BeatLength.Readable`, `ChordPattern.cut_of_tokens`),
and names without the separators of tokens (`ChordName.mem_text`).
-/

namespace Songsmith

/-! ## The characters of chord names -/

namespace Chord

/-- The characters that chord names are made of, besides the blanks around them. -/
def nameChars : Text := ['C', 'D', 'E', 'F', 'G', 'A', 'B', '#', 'b', 'm']

/-- The letters that name a note may stand in a name. -/
theorem letter_mem_nameChars {c : Char} (h : (letterClass? c).isSome) : c ∈ nameChars := by
  unfold letterClass? at h
  split at h
  all_goals first | decide | cases h

/-- The suffixes that say a quality may stand in a name. -/
theorem suffix_subset_nameChars {text : Text} (h : (suffixQuality? text).isSome) :
    text ⊆ nameChars := by
  unfold suffixQuality? at h
  split at h
  · exact List.nil_subset _
  · decide
  · cases h

/-- A name without blanks around it is made of letters, accidentals and the sign for minor. -/
theorem subset_nameChars {text : Text} (h : (nameParts? text).isSome) : text ⊆ nameChars := by
  have hbind : ∀ {letter : Char} {rest : Text} {rootClass : Option Int},
      (do some (← rootClass, ← suffixQuality? rest) : Option (Int × Quality)).isSome →
      (rootClass.isSome → (letterClass? letter).isSome) →
      letter ∈ nameChars ∧ rest ⊆ nameChars := by
    intro letter rest rootClass hsome hletter
    cases rootClass with
    | none => cases hsome
    | some n =>
      cases hquality : suffixQuality? rest with
      | none => rw [hquality] at hsome; cases hsome
      | some q =>
        exact ⟨letter_mem_nameChars (hletter rfl),
          suffix_subset_nameChars (by rw [hquality]; rfl)⟩
  unfold nameParts? at h
  split at h
  · obtain ⟨hletter, hrest⟩ := hbind h fun hsharp => by
      unfold sharpClass? at hsharp
      split at hsharp
      · cases hsharp
      · rwa [Option.isSome_map] at hsharp
    exact List.cons_subset.2 ⟨hletter, List.cons_subset.2 ⟨by decide, hrest⟩⟩
  · obtain ⟨hletter, hrest⟩ := hbind h fun hflat => by
      unfold flatClass? at hflat
      split at hflat
      · cases hflat
      · rwa [Option.isSome_map] at hflat
    exact List.cons_subset.2 ⟨hletter, List.cons_subset.2 ⟨by decide, hrest⟩⟩
  · obtain ⟨hletter, hrest⟩ := hbind h id
    exact List.cons_subset.2 ⟨hletter, hrest⟩
  · cases h

end Chord

namespace ChordName

/-- A name holds blanks and characters of chord names. -/
theorem mem_text {n : ChordName} {c : Char} (hc : c ∈ n.text) :
    Text.isBlankChar c = true ∨ c ∈ Chord.nameChars := by
  cases hblank : Text.isBlankChar c with
  | true => exact .inl rfl
  | false => exact .inr (Chord.subset_nameChars n.valid (Text.mem_trimBy_of_mem hc hblank))

/-- A character that is neither blank nor one of chord names is not in a name. -/
theorem not_mem_text {n : ChordName} {c : Char} (hblank : Text.isBlankChar c = false)
    (hname : c ∉ Chord.nameChars) : c ∉ n.text := by
  intro hc
  rcases mem_text hc with h | h
  · rw [hblank] at h
    cases h
  · exact hname h

/-- Not all of a name is blank. -/
theorem dropWhile_ne_nil (n : ChordName) : n.text.dropWhile Text.isBlankChar ≠ [] := by
  intro hnil
  have hvalid := n.valid
  rw [Text.trim, Text.trimBy, hnil] at hvalid
  cases hvalid

/-- A name is not empty. -/
theorem text_ne_nil (n : ChordName) : n.text ≠ [] := by
  intro hnil
  exact n.dropWhile_ne_nil (by rw [hnil]; rfl)

/-- The names are the same but for the blanks in front of them. -/
def SameButBlanks (n m : ChordName) : Prop :=
  n.text.dropWhile Text.isBlankChar = m.text.dropWhile Text.isBlankChar

/-- Blanks around a name make no difference to what it means. -/
theorem SameButBlanks.parts_eq {n m : ChordName} (h : n.SameButBlanks m) : n.parts = m.parts := by
  have hparts (n : ChordName) : some n.parts = Chord.nameParts? (Text.trim n.text) :=
    Option.some_get _
  have htrim : Text.trim n.text = Text.trim m.text :=
    congrArg (Text.dropEndWhile Text.isBlankChar) h
  exact Option.some_inj.1 (by rw [hparts, hparts, htrim])

/-- Names that are the same but for blanks agree with the same harmonies. -/
theorem SameButBlanks.sameHarmony_eq {n n' m m' : ChordName} (h : n.SameButBlanks n')
    (h' : m.SameButBlanks m') : n.sameHarmony m = n'.sameHarmony m' := by
  rw [sameHarmony, sameHarmony, h.parts_eq, h'.parts_eq]

end ChordName

/-! ## Lengths and tokens as they are read -/

/-- The length is the number its text says, and the text can stand at the end of a token. -/
structure BeatLength.Readable (b : BeatLength) : Prop where
  nonempty : b.text ≠ []
  comma : ',' ∉ b.text
  slash : '/' ∉ b.text
  last : ∀ c, b.text.getLast? = some c → Text.isBlankChar c = false
  value : RealText.readFinite? b.text = some b.value

namespace ChordToken

/-- The token has parts as they are cut from a token of a chord pattern. -/
structure Cut (token : ChordToken) : Prop where
  beats : token.beats.Readable
  reference : token.startsSection = false →
    ∀ c, token.reference.head? = some c → Text.isBlankChar c = false

/-- What stands behind the mark is the end of the text. -/
theorem spanMark_suffix (text : Text) : (spanMark text).2 <:+ text := by
  unfold spanMark
  split
  · exact List.suffix_cons _ _
  · exact List.suffix_refl _

/-- Without a mark, all of the text is left. -/
theorem eq_of_spanMark {text body : Text} (h : spanMark text = (false, body)) : text = body := by
  unfold spanMark at h
  split at h
  · cases h
  · exact congrArg Prod.snd h

/-- There is a mark only where a plus comes first. -/
theorem spanMark_of_ne {text : Text} (h : text.head? ≠ some '+') :
    spanMark text = (false, text) := by
  unfold spanMark
  split
  · exact absurd rfl h
  · rfl

/-- A text with a mark, a reference and a length is read as the token of these parts. -/
theorem read_eq {text reference : Text} {mark : Bool} {beats : BeatLength}
    (htext : spanMark (Text.trim text) = (mark, reference ++ '/' :: beats.text))
    (hne : reference ≠ []) (hslash : '/' ∉ reference) (hbeats : beats.Readable) :
    read text = .ok ⟨mark, reference, beats⟩ := by
  obtain ⟨beatsText, value⟩ := beats
  obtain ⟨c, reference, rfl⟩ := List.exists_cons_of_ne_nil hne
  obtain ⟨d, beatsText, rfl⟩ := List.exists_cons_of_ne_nil hbeats.nonempty
  have hvalue := hbeats.value
  simp only at hvalue
  simp only [read, htext, Text.splitOn_pair hslash hbeats.slash, hvalue]

/-- A token is read from a text with its mark, its reference and its length. -/
theorem read_inv {text : Text} {token : ChordToken} (h : read text = .ok token) :
    spanMark (Text.trim text) =
        (token.startsSection, token.reference ++ '/' :: token.beats.text) ∧
      token.reference ≠ [] ∧ token.beats.text ≠ [] ∧ '/' ∉ token.beats.text ∧
      RealText.readFinite? token.beats.text = some token.beats.value := by
  unfold read at h
  simp only at h
  split at h
  · rename_i c reference d beats hsplit
    split at h
    · rename_i value hvalue
      cases h
      have hbody : ['/'].intercalate ((spanMark (Text.trim text)).2.splitOn '/') =
          (spanMark (Text.trim text)).2 := List.intercalate_splitOn '/'
      rw [hsplit, List.intercalate_cons_cons, List.intercalate_singleton, List.append_assoc]
        at hbody
      have hslash := Text.of_mem_splitOn
        (show d :: beats ∈ _ by rw [hsplit]; exact List.mem_cons_of_mem _ List.mem_cons_self)
      exact ⟨Prod.ext rfl hbody.symm, List.cons_ne_nil _ _, List.cons_ne_nil _ _, hslash.1, hvalue⟩
    · cases h
  · cases h

/-- What is read from a text without commas has such parts. -/
theorem cut_of_read {text : Text} {token : ChordToken} (hcomma : ',' ∉ text)
    (h : read text = .ok token) : token.Cut := by
  obtain ⟨hspan, -, hne, hslash, hvalue⟩ := read_inv h
  have htight : Text.Tight Text.isBlankChar (Text.trim text) := Text.tight_trimBy _ text
  have hsuffix := spanMark_suffix (Text.trim text)
  rw [hspan] at hsuffix
  have hbeats : token.beats.text <:+ Text.trim text :=
    List.IsSuffix.trans ⟨token.reference ++ ['/'], by simp⟩ hsuffix
  refine ⟨⟨hne, fun hmem => hcomma (Text.mem_of_mem_trimBy (hbeats.subset hmem)), hslash,
    fun c hc => htight.last c ?_, hvalue⟩, fun hunmarked c hc => htight.head c ?_⟩
  · obtain ⟨pre, hpre⟩ := hbeats
    rw [← hpre, List.getLast?_append, hc]
    rfl
  · rw [hunmarked] at hspan
    rw [eq_of_spanMark hspan, List.head?_append, hc]
    rfl

end ChordToken

/-- A chord pattern has a token. -/
theorem ChordPattern.tokens_ne_nil {p : ChordPattern} {tokens : List ChordToken}
    (h : p.tokens = .ok tokens) : tokens ≠ [] := by
  rintro rfl
  exact List.splitOn_ne_nil _ _ (List.forall₂_nil_right_iff.1 (Outcome.mapM_eq_ok_iff.1 h))

/-- The tokens of a chord pattern have parts as they are cut from it. -/
theorem ChordPattern.cut_of_tokens {p : ChordPattern} {tokens : List ChordToken}
    (h : p.tokens = .ok tokens) {token : ChordToken} (htoken : token ∈ tokens) : token.Cut := by
  obtain ⟨text, htext, hread⟩ :=
    Outcome.exists_rel_of_mem (Outcome.mapM_eq_ok_iff.1 h) htoken
  exact ChordToken.cut_of_read (Text.of_mem_splitOn htext).1 hread

/-! ## Resolved tokens -/

namespace ResolvedToken

/-- The token that is read where a resolved token is written. The blanks in front of its name are
lost if nothing stands before them. -/
def reread (r : ResolvedToken) : ChordToken where
  startsSection := r.startsSection
  reference := if r.startsSection then r.name.text else r.name.text.dropWhile Text.isBlankChar
  beats := r.beats

/-- Only the blanks in front of a name are lost. -/
theorem dropWhile_reread (r : ResolvedToken) :
    r.reread.reference.dropWhile Text.isBlankChar = r.name.text.dropWhile Text.isBlankChar := by
  unfold reread
  cases r.startsSection with
  | true => rfl
  | false => exact List.dropWhile_idempotent _ _

/-- The name that is read where a resolved token is written. -/
def nameRead (r : ResolvedToken) : ChordName where
  text := r.reread.reference
  valid := by
    rw [Text.trim, Text.trimBy, dropWhile_reread]
    exact r.name.valid

/-- It is the name of the token but for the blanks in front. -/
theorem sameButBlanks_nameRead (r : ResolvedToken) : r.name.SameButBlanks r.nameRead :=
  (dropWhile_reread r).symm

/-- The last character of a resolved token is that of its length. -/
theorem last_write {r : ResolvedToken} (h : r.beats.Readable) {c : Char}
    (hc : r.write.getLast? = some c) : Text.isBlankChar c = false := by
  refine h.last c ?_
  rw [List.getLast?_eq_some_getLast h.nonempty]
  rwa [write, List.getLast?_append, List.getLast?_cons, List.getLast?_eq_some_getLast h.nonempty]
    at hc

/-- A resolved token is read again where it is written. -/
theorem read_write {r : ResolvedToken} (h : r.beats.Readable) :
    ChordToken.read r.write = .ok r.reread := by
  have htrim : Text.trim r.write = r.write.dropWhile Text.isBlankChar :=
    Text.trimBy_of_last fun c hc => last_write h hc
  have hslash : '/' ∉ r.name.text := ChordName.not_mem_text (by decide) (by decide)
  have hplus : '+' ∉ r.name.text := ChordName.not_mem_text (by decide) (by decide)
  unfold reread
  cases hmark : r.startsSection with
  | true =>
    refine ChordToken.read_eq ?_ r.name.text_ne_nil hslash h
    rw [htrim, write, hmark]
    rfl
  | false =>
    have hsub := List.dropWhile_subset (l := r.name.text) Text.isBlankChar
    refine ChordToken.read_eq ?_ r.name.dropWhile_ne_nil (fun hmem => hslash (hsub hmem)) h
    have hdrop : r.write.dropWhile Text.isBlankChar =
        r.name.text.dropWhile Text.isBlankChar ++ '/' :: r.beats.text := by
      rw [write, hmark, if_neg Bool.false_ne_true, List.nil_append, List.dropWhile_append,
        if_neg (by simpa using r.name.dropWhile_ne_nil)]
    rw [htrim, hdrop]
    refine ChordToken.spanMark_of_ne fun hhead => ?_
    obtain ⟨c, rest, hcons⟩ := List.exists_cons_of_ne_nil r.name.dropWhile_ne_nil
    rw [hcons, List.cons_append, List.head?_cons] at hhead
    cases hhead
    exact hplus (hsub (by rw [hcons]; exact List.mem_cons_self))

/-- There is no comma in a resolved token. -/
theorem comma_not_mem_write {r : ResolvedToken} (h : r.beats.Readable) : ',' ∉ r.write := by
  have hname : ',' ∉ r.name.text := ChordName.not_mem_text (by decide) (by decide)
  intro hmem
  rw [write, List.append_assoc, List.mem_append, List.mem_append, List.mem_cons] at hmem
  rcases hmem with hmem | hmem | hmem | hmem
  · split at hmem
    · simp at hmem
    · cases hmem
  · exact hname hmem
  · simp at hmem
  · exact h.comma hmem

end ResolvedToken

end Songsmith
