import Songsmith.Proofs.Pattern.Unrolling
import Songsmith.Proofs.Track.Filling
import Mathlib.Data.List.Pairwise

/-!
# Reuse of parts

A layout makes one part for every token that is not a pause, where the token occurs first, and takes
that part again wherever the token is repeated. So a layout is laid out by making the parts of the
first occurrences one after the other (`Layout.makeParts`) and looking up in them what every token
stands for (`Layout.layTokens_eq`): repetitions and pauses draw nothing and keep nothing, and a
pause can only fail because its length cannot be written. Parts are only ever added
(`Layout.isPrefix_makeParts`), one for each key (`Layout.key_makeParts`), and where parts are unique
those of one group differ (`Layout.Distinct.makeParts`).

`Layout.generate_reuses` says what that means for the tokens of one layout, and
`Layout.generate_same_parts` for two layouts with the same first occurrences.
-/

namespace Songsmith

/-- The group and the digit of a token that stands for a part. -/
def LayoutToken.key? : LayoutToken → Option (Char × Char)
  | pause => none
  | part group digit => some (group, digit)

/-- The group and the digit of the token that a part was made for. -/
def Part.key (p : Part) : Char × Char := (p.group, p.digit)

namespace Layout

/-- The expansion of a layout, cut at its commas, is read as these tokens. -/
def Reads [Machine] (layout : Text) (tokens : List LayoutToken) : Prop :=
  ∃ expansion, Shorthand.expand layout = .ok expansion ∧
    (expansion.splitOn ',').mapM LayoutToken.read = .ok tokens

/-- The keys of the tokens, each where it occurs first. -/
def firstKeys (tokens : List LayoutToken) : List (Char × Char) :=
  (tokens.filterMap LayoutToken.key?).eraseDups

/-- Every part of the layout is among the keys. -/
theorem mem_firstKeys {tokens : List LayoutToken} {group digit : Char}
    (h : .part group digit ∈ tokens) : (group, digit) ∈ firstKeys tokens :=
  List.mem_eraseDups.2 (List.mem_filterMap.2 ⟨_, h, rfl⟩)

/-! ## Looking parts up -/

/-- The part that was made for a key. -/
def partOf? (made : List Part) (key : Char × Char) : Option Part :=
  made.find? fun p => p.group == key.1 && p.digit == key.2

/-- The text that a token stands for once the parts are made. -/
def textOf (rule : PartRule) (made : List Part) : LayoutToken → Text
  | .pause => (pauseText rule.ticks rule.ticksPerBeat).toOption.getD []
  | .part group digit => ((partOf? made (group, digit)).map Part.text).getD []

section
variable {made made' : List Part} {key : Char × Char}

/-- The part that is found was made, and has the key that it was looked for under. -/
theorem partOf?_eq_some {p : Part} (h : partOf? made key = some p) : p ∈ made ∧ p.key = key := by
  have hkey := List.find?_some h
  simp only [Bool.and_eq_true, beq_iff_eq] at hkey
  exact ⟨List.mem_of_find?_eq_some h, Prod.ext hkey.1 hkey.2⟩

/-- No part is found when none was made under the key. -/
theorem partOf?_eq_none_iff : partOf? made key = none ↔ key ∉ made.map Part.key := by
  rw [partOf?, List.find?_eq_none, List.mem_map, not_exists]
  refine forall_congr' fun p => ?_
  rw [Bool.and_eq_true, beq_iff_eq, beq_iff_eq, Part.key, Prod.ext_iff, ← not_and]

/-- A part is found under every key that one was made for. -/
theorem exists_partOf? (h : key ∈ made.map Part.key) : ∃ p, partOf? made key = some p := by
  rw [← Option.ne_none_iff_exists']
  exact fun hnone => partOf?_eq_none_iff.1 hnone h

/-- A part that is made stays the one that is found. -/
theorem partOf?_of_isPrefix (hstart : made <+: made') {p : Part} (h : partOf? made key = some p) :
    partOf? made' key = some p := by
  obtain ⟨later, rfl⟩ := hstart
  rw [partOf?, List.find?_append]
  exact Option.or_eq_some_iff.2 (.inl h)

/-- The first part that is made for a key is the one that is found. -/
theorem partOf?_concat {group digit : Char} (h : partOf? made (group, digit) = none)
    (text : Text) :
    partOf? (made ++ [⟨group, digit, text⟩]) (group, digit) = some ⟨group, digit, text⟩ := by
  rw [partOf?] at h
  rw [partOf?, List.find?_append, h]
  simp

end

/-! ## Making the parts of keys -/

section
variable {σ : Type} [Source σ] {rule : PartRule}

/-- Makes the parts of keys one after the other, behind those that are made already. -/
def makeParts (rule : PartRule) : (made : List Part) → List (Char × Char) → σ → Layout σ
  | made, [], source => ⟨made, .ok (made.map Part.text), source⟩
  | made, (group, digit) :: rest, source =>
    match makePart rule made group digit source with
    | (.error e, source) => ⟨made, .error e, source⟩
    | (.ok text, source) => makeParts rule (made ++ [⟨group, digit, text⟩]) rest source

/-- Parts that were made before are kept, and stand in front. -/
theorem isPrefix_makeParts (rule : PartRule) (made : List Part) (keys : List (Char × Char))
    (source : σ) : made <+: (makeParts rule made keys source).made := by
  fun_induction makeParts rule made keys source with
  | case1 => exact List.prefix_refl _
  | case2 => exact List.prefix_refl _
  | case3 made source group digit rest text next _ ih =>
    exact (List.prefix_append _ _).trans ih

/-- A token stands for the part that is found for it, whatever is made later. -/
theorem textOf_makeParts (rule : PartRule) {made : List Part} {group digit : Char} {p : Part}
    (h : partOf? made (group, digit) = some p) (keys : List (Char × Char)) (source : σ) :
    textOf rule (makeParts rule made keys source).made (.part group digit) = p.text := by
  rw [textOf, partOf?_of_isPrefix (isPrefix_makeParts rule made keys source) h]
  rfl

/-- If nothing fails, there is a part for every key. -/
theorem key_makeParts {made : List Part} {keys : List (Char × Char)} {source : σ}
    {texts : List Text} (h : (makeParts rule made keys source).result = .ok texts) :
    (makeParts rule made keys source).made.map Part.key = made.map Part.key ++ keys := by
  fun_induction makeParts rule made keys source with
  | case1 made source => rw [List.append_nil]
  | case2 => cases h
  | case3 made source group digit rest text next _ ih =>
    rw [ih h, List.map_append, List.append_assoc]
    rfl

/-- If nothing fails, every token that is not a pause has a part. -/
theorem mem_key_makeParts {tokens : List LayoutToken} {source : σ} {texts : List Text}
    (h : (makeParts rule [] (firstKeys tokens) source).result = .ok texts) {group digit : Char}
    (hmem : .part group digit ∈ tokens) :
    (group, digit) ∈ (makeParts rule [] (firstKeys tokens) source).made.map Part.key := by
  rw [key_makeParts h]
  exact mem_firstKeys hmem

/-- Parts of one group have different texts. -/
def Distinct (made : List Part) : Prop :=
  made.Pairwise fun p q => p.group = q.group → p.text ≠ q.text

/-- A variation that has to be unique is not one of the texts it has to differ from. -/
theorem not_mem_of_varyWithin {group digit : Char} {cs : List Candidate} {nonempty : cs ≠ []}
    {taken : List Text} {tries : Nat} {source : σ} {text : Text} (hunique : rule.unique = true)
    (h : (varyWithin rule group digit cs nonempty taken tries source).1 = .ok text) :
    text ∉ taken := by
  induction tries generalizing source with
  | zero => cases h
  | succ tries ih =>
    rw [varyWithin] at h
    split at h
    · cases h
    · split at h
      · exact ih h
      · rename_i hfresh
        cases h
        rw [hunique, Bool.true_and, List.contains_iff_mem] at hfresh
        exact hfresh

/-- A part that has to be unique differs from all parts of its group. -/
theorem text_ne_of_makePart {made : List Part} {group digit : Char} {source : σ} {text : Text}
    (hunique : rule.unique = true) (h : (makePart rule made group digit source).1 = .ok text) :
    ∀ p ∈ made, p.group = group → p.text ≠ text := by
  intro p hp hgroup hsame
  have hknown : p ∈ made.filter (·.group == group) :=
    List.mem_filter.2 ⟨hp, beq_iff_eq.2 hgroup⟩
  unfold makePart at h
  split at h
  · cases h
  · simp only at h
    split at h
    · rename_i hnone
      rw [hnone] at hknown
      cases hknown
    · exact not_mem_of_varyWithin hunique h (hsame ▸ List.mem_map_of_mem hknown)

/-- If repeats are refused, distinct parts stay distinct as more are made. -/
theorem Distinct.makeParts {made : List Part} (h : Distinct made) (hunique : rule.unique = true)
    (keys : List (Char × Char)) (source : σ) :
    Distinct (makeParts rule made keys source).made := by
  fun_induction Layout.makeParts rule made keys source with
  | case1 => exact h
  | case2 => exact h
  | case3 made source group digit rest text next hpart ih =>
    refine ih (List.pairwise_append.2 ⟨h, List.pairwise_singleton _ _, ?_⟩)
    rintro p hp q hq hgroup
    obtain rfl := List.mem_singleton.1 hq
    exact text_ne_of_makePart hunique (congrArg Prod.fst hpart) p hp hgroup

/-- What a token stands for is the text of its part. -/
theorem exists_textOf (rule : PartRule) {made : List Part} {group digit : Char}
    (h : (group, digit) ∈ made.map Part.key) :
    ∃ p ∈ made, p.key = (group, digit) ∧ textOf rule made (.part group digit) = p.text := by
  obtain ⟨p, hp⟩ := exists_partOf? h
  obtain ⟨hmem, hkey⟩ := partOf?_eq_some hp
  exact ⟨p, hmem, hkey, by rw [textOf, hp]; rfl⟩

/-- Two tokens of one group stand for different parts where parts are unique. -/
theorem textOf_ne {made : List Part} (hdistinct : Distinct made) {group digit digit' : Char}
    (h : (group, digit) ∈ made.map Part.key) (h' : (group, digit') ∈ made.map Part.key)
    (hne : digit ≠ digit') :
    textOf rule made (.part group digit) ≠ textOf rule made (.part group digit') := by
  obtain ⟨p, hp, hkey, htext⟩ := exists_textOf rule h
  obtain ⟨q, hq, hkey', htext'⟩ := exists_textOf rule h'
  have hpq : p ≠ q := by
    rintro rfl
    exact hne (congrArg Prod.snd (hkey.symm.trans hkey'))
  have hgroup : p.group = q.group := (congrArg Prod.fst hkey).trans (congrArg Prod.fst hkey').symm
  have : Std.Symm fun p q : Part => p.group = q.group → p.text ≠ q.text :=
    ⟨fun p q hpq hgroup => (hpq hgroup.symm).symm⟩
  rw [htext, htext']
  exact List.Pairwise.forall hdistinct hp hq hpq hgroup

end

/-! ## Laying out tokens -/

section
variable {σ : Type} {rule : PartRule}

/-- The layout of tokens behind those that are `done`, once their parts are made. -/
def lookUp (rule : PartRule) (done : List Text) (tokens : List LayoutToken) (parts : Layout σ) :
    Layout σ :=
  ⟨parts.made, parts.result.map fun _ => done.reverse ++ tokens.map (textOf rule parts.made),
    parts.source⟩

/-- A token whose text is known may be counted among the done ones or among those to come. -/
theorem lookUp_cons {done : List Text} {token : LayoutToken} {tokens : List LayoutToken}
    {text : Text} {parts : Layout σ} (h : textOf rule parts.made token = text) :
    lookUp rule (text :: done) tokens parts = lookUp rule done (token :: tokens) parts := by
  simp [lookUp, h]

/-- What is looked up is a text for every token. -/
theorem lookUp_eq_ok_iff {tokens : List LayoutToken} {parts : Layout σ} {texts : List Text} :
    (lookUp rule [] tokens parts).result = .ok texts ↔
      (∃ made, parts.result = .ok made) ∧ texts = tokens.map (textOf rule parts.made) := by
  rw [lookUp, Outcome.map_eq_ok_iff]
  simp [eq_comm]

/-- The layout fails at a pause among its tokens, because the length of a part cannot be written. -/
def FailsAtPause (rule : PartRule) (tokens : List LayoutToken) (l : Layout σ) : Prop :=
  .pause ∈ tokens ∧ ∃ e, pauseText rule.ticks rule.ticksPerBeat = .error e ∧ l.result = .error e

/-- A layout that fails at its pause still does with one more token. -/
theorem FailsAtPause.cons {tokens : List LayoutToken} {l : Layout σ}
    (h : FailsAtPause rule tokens l) (token : LayoutToken) :
    FailsAtPause rule (token :: tokens) l :=
  ⟨List.mem_cons_of_mem _ h.1, h.2⟩

/-- In ticks every length of few enough digits can be written. -/
theorem FailsAtPause.digitLimit_lt {tokens : List LayoutToken} {l : Layout σ}
    (h : FailsAtPause rule tokens l) (hunit : rule.ticksPerBeat = none) :
    Integer.digitLimit < (Nat.toDigits 10 rule.ticks).length := by
  obtain ⟨-, e, he, -⟩ := h
  by_contra! hshort
  have hwritten : Integer.write rule.ticks = .ok (Integer.digits rule.ticks) :=
    Integer.write_eq_ok hshort
  rw [hunit, pauseText, hwritten] at he
  cases he

/-- The keys of the tokens for which no part is made yet, each where it occurs first. -/
def newKeys (made : List Part) (tokens : List LayoutToken) : List (Char × Char) :=
  ((tokens.filterMap LayoutToken.key?).filter (· ∉ made.map Part.key)).eraseDups

/-- Before any token is seen, all keys are new. -/
theorem newKeys_nil (tokens : List LayoutToken) : newKeys [] tokens = firstKeys tokens := by
  simp [newKeys, firstKeys]

/-- A token that has its part adds no key. -/
theorem newKeys_of_mem {made : List Part} {group digit : Char}
    (h : (group, digit) ∈ made.map Part.key) (tokens : List LayoutToken) :
    newKeys made (.part group digit :: tokens) = newKeys made tokens := by
  rw [newKeys, List.filterMap_cons_some (f := LayoutToken.key?) rfl, List.filter_cons_of_neg]
  · rfl
  · simpa using h

/-- A token without a part adds its key, which the tokens behind it do not add again. -/
theorem newKeys_of_not_mem {made : List Part} {group digit : Char} (text : Text)
    (h : (group, digit) ∉ made.map Part.key) (tokens : List LayoutToken) :
    newKeys made (.part group digit :: tokens) =
      (group, digit) :: newKeys (made ++ [⟨group, digit, text⟩]) tokens := by
  rw [newKeys, List.filterMap_cons_some (f := LayoutToken.key?) rfl, List.filter_cons_of_pos,
    List.eraseDups_cons, List.filter_filter, newKeys]
  · congr 3
    funext key
    rw [Bool.eq_iff_iff]
    simp [Part.key, and_comm]
  · simpa using h

variable [Source σ]

/-- Tokens are laid out by making the parts that are missing, and looking up the text of every
token, unless a pause cannot be written. -/
theorem layTokens_eq {made : List Part} {done texts : List Text} {tokens : List LayoutToken}
    (hread : List.Forall₂ (fun text token => LayoutToken.read text = .ok token) texts tokens)
    (source : σ) :
    layTokens rule made done texts source =
        lookUp rule done tokens (makeParts rule made (newKeys made tokens) source) ∨
      FailsAtPause rule tokens (layTokens rule made done texts source) := by
  induction hread generalizing made done source with
  | nil =>
    left
    simp [layTokens, lookUp, newKeys, makeParts, Except.map]
  | @cons text token texts tokens htoken hread ih =>
    rw [layTokens, htoken]
    cases token with
    | pause =>
      cases htext : pauseText rule.ticks rule.ticksPerBeat with
      | error e => exact .inr ⟨List.mem_cons_self, e, htext, rfl⟩
      | ok text =>
        -- a pause has no key, so that the keys are those of the tokens behind it
        refine (ih source).imp (fun heq => heq.trans (lookUp_cons ?_)) (·.cons _)
        rw [textOf, htext]
        rfl
    | part group digit =>
      simp only
      cases hfound : partOf? made (group, digit) with
      | some p =>
        have hmem : (group, digit) ∈ made.map Part.key := by
          obtain ⟨hmem, hkey⟩ := partOf?_eq_some hfound
          exact hkey ▸ List.mem_map_of_mem hmem
        have htext := textOf_makeParts rule hfound (newKeys made tokens) source
        rw [partOf?] at hfound
        simp only [hfound, newKeys_of_mem hmem]
        exact (ih source).imp (fun heq => heq.trans (lookUp_cons htext)) (·.cons _)
      | none =>
        have hmem := partOf?_eq_none_iff.1 hfound
        have hnew := partOf?_concat hfound
        rw [partOf?] at hfound
        simp only [hfound]
        cases hpart : makePart rule made group digit source with
        | mk result next =>
          cases result with
          | error e =>
            left
            simp [newKeys_of_not_mem [] hmem, makeParts, hpart, lookUp, Except.map]
          | ok text =>
            -- the part is found from here on, by the token itself and by those behind it
            have htext := textOf_makeParts rule (hnew text)
              (newKeys (made ++ [⟨group, digit, text⟩]) tokens) next
            simp only [newKeys_of_not_mem text hmem, makeParts, hpart]
            exact (ih next).imp (fun heq => heq.trans (lookUp_cons htext)) (·.cons _)

/-- A layout is laid out in that way. -/
theorem generate_eq [Machine] (rule : PartRule) {layout : Text} {tokens : List LayoutToken}
    (hreads : Reads layout tokens) (source : σ) :
    generate rule layout source =
        lookUp rule [] tokens (makeParts rule [] (firstKeys tokens) source) ∨
      FailsAtPause rule tokens (generate rule layout source) := by
  obtain ⟨expansion, hexpand, hread⟩ := hreads
  obtain ⟨texts, htexts, rfl⟩ := Outcome.map_eq_ok_iff.1 hexpand
  rw [(Shorthand.splitOn_expand htexts).2] at hread
  rw [generate, htexts, ← newKeys_nil]
  exact layTokens_eq (Outcome.mapM_eq_ok_iff.1 hread) source

/-- A layout that is laid out consists of tokens, each of which gets a part that fits. -/
theorem exists_reads_of_generate [Machine] {layout : Text} {source : σ} {parts : List Text}
    (h : (generate rule layout source).result = .ok parts) :
    ∃ tokens, Reads layout tokens ∧ List.Forall₂ rule.Fits tokens parts := by
  obtain ⟨expansion, hexpand, hfits⟩ := generate_inv h
  clear h
  suffices ∃ tokens, List.Forall₂ (fun text token => LayoutToken.read text = .ok token)
      (expansion.splitOn ',') tokens ∧ List.Forall₂ rule.Fits tokens parts by
    obtain ⟨tokens, hread, hfits⟩ := this
    exact ⟨tokens, ⟨expansion, hexpand, Outcome.mapM_eq_ok_iff.2 hread⟩, hfits⟩
  generalize expansion.splitOn ',' = texts at hfits ⊢
  induction hfits with
  | nil => exact ⟨[], .nil, .nil⟩
  | cons htext _ ih =>
    obtain ⟨token, htoken, hfit⟩ := htext
    obtain ⟨tokens, hread, hfits⟩ := ih
    exact ⟨token :: tokens, .cons htoken hread, .cons hfit hfits⟩

/-- The tokens of a layout are determined by its text. -/
theorem Reads.unique [Machine] {layout : Text} {tokens tokens' : List LayoutToken}
    (h : Reads layout tokens) (h' : Reads layout tokens') : tokens = tokens' := by
  obtain ⟨expansion, hexpand, hread⟩ := h
  obtain ⟨expansion', hexpand', hread'⟩ := h'
  cases Except.ok.inj (hexpand.symm.trans hexpand')
  exact Except.ok.inj (hread.symm.trans hread')

end

/-- Every token of a layout stands for one part that fits it, however often it is repeated, all
pauses for the same one, and where parts are unique, different tokens of a group stand for different
parts. -/
theorem generate_reuses {σ : Type} [Machine] [Source σ] {rule : PartRule} {layout text : Text}
    {source : σ} (h : (generate rule layout source).text = .ok text) :
    ∃ (tokens : List LayoutToken) (partOf : LayoutToken → Text), Reads layout tokens ∧
      (generate rule layout source).result = .ok (tokens.map partOf) ∧
      text = Text.commaJoin (tokens.map partOf) ∧
      (∀ token ∈ tokens, rule.Fits token (partOf token)) ∧
      (rule.unique = true → ∀ group digit digit', .part group digit ∈ tokens →
        .part group digit' ∈ tokens → digit ≠ digit' →
        partOf (.part group digit) ≠ partOf (.part group digit')) := by
  obtain ⟨parts, hparts, rfl⟩ := Outcome.map_eq_ok_iff.1 h
  obtain ⟨tokens, hreads, hfits⟩ := exists_reads_of_generate hparts
  obtain heq | ⟨-, e, -, herror⟩ := generate_eq rule hreads source
  · have hlookUp := hparts
    rw [heq] at hlookUp
    obtain ⟨⟨made, hmade⟩, rfl⟩ := lookUp_eq_ok_iff.1 hlookUp
    refine ⟨tokens, _, hreads, hparts, rfl, ?_, ?_⟩
    · exact List.forall₂_same.1 (List.forall₂_map_right_iff.1 hfits)
    · intro hunique group digit digit' hmem hmem' hne
      refine textOf_ne (Distinct.makeParts .nil hunique _ _) ?_ ?_ hne
      · exact mem_key_makeParts hmade hmem
      · exact mem_key_makeParts hmade hmem'
  · cases hparts.symm.trans herror

/-- A layout with two groups in turn, repetitions and pauses, in which a part is made again because
it is the part of the group that is there already. -/
theorem generate_reuses_interleaved :
    let _ := Machine.small
    (generate ⟨⟨[⟨'A', [['0'], ['1']], by simp⟩, ⟨'B', [['5']], by simp⟩]⟩, 1, true, none⟩
        "A1,B1,A2,-,A1, B1 ,-".toList [0, 0, 0, 1]).text = .ok "0,5,1,-/1,0,5,-/1".toList ∧
      ∃ partOf : LayoutToken → Text,
        "0,5,1,-/1,0,5,-/1".toList = Text.commaJoin ([.part 'A' '1', .part 'B' '1', .part 'A' '2',
          .pause, .part 'A' '1', .part 'B' '1', .pause].map partOf) ∧
        partOf (.part 'A' '1') ≠ partOf (.part 'A' '2') := by
  intro machine
  have htext : (generate ⟨⟨[⟨'A', [['0'], ['1']], by simp⟩, ⟨'B', [['5']], by simp⟩]⟩, 1, true,
      none⟩ "A1,B1,A2,-,A1, B1 ,-".toList [0, 0, 0, 1]).text = .ok "0,5,1,-/1,0,5,-/1".toList := by
    decide +kernel
  have hreads : Reads "A1,B1,A2,-,A1, B1 ,-".toList [.part 'A' '1', .part 'B' '1',
      .part 'A' '2', .pause, .part 'A' '1', .part 'B' '1', .pause] :=
    ⟨"A1,B1,A2,-,A1,B1,-".toList, by decide +kernel, by decide +kernel⟩
  obtain ⟨tokens, partOf, htokens, -, hjoin, -, hunique⟩ := generate_reuses htext
  cases hreads.unique htokens
  exact ⟨htext, partOf, hjoin, hunique rfl 'A' '1' '2' (by simp) (by simp) (by decide)⟩

/-- Two layouts have made the same parts, and take them for the same tokens. -/
structure SameParts {σ : Type} (tokens tokens' : List LayoutToken) (l l' : Layout σ) : Prop where
  made : l.made = l'.made
  source : l.source = l'.source
  result : (∃ e, l.result = .error e ∧ l'.result = .error e) ∨
    ∃ partOf, l.result = .ok (tokens.map partOf) ∧ l'.result = .ok (tokens'.map partOf)

/-- Looking texts up in the same parts gives the same part for each key. -/
theorem sameParts_lookUp {σ : Type} {rule : PartRule} (tokens tokens' : List LayoutToken)
    (parts : Layout σ) :
    SameParts tokens tokens' (lookUp rule [] tokens parts) (lookUp rule [] tokens' parts) where
  made := rfl
  source := rfl
  result := by
    cases hmade : parts.result with
    | error e =>
      left
      exact ⟨e, by rw [lookUp, hmade]; rfl, by rw [lookUp, hmade]; rfl⟩
    | ok made =>
      right
      exact ⟨_, lookUp_eq_ok_iff.2 ⟨⟨made, hmade⟩, rfl⟩, lookUp_eq_ok_iff.2 ⟨⟨made, hmade⟩, rfl⟩⟩

/-- Where lengths are in ticks, two layouts that differ in repetitions and pauses only are laid out
with the same parts and the same draws, or fail in the same way. The one failure of a pause of its
own is that its length has more digits than are written. -/
theorem generate_same_parts {σ : Type} [Machine] [Source σ] {rule : PartRule}
    {layout layout' : Text} {tokens tokens' : List LayoutToken} (hunit : rule.ticksPerBeat = none)
    (hreads : Reads layout tokens) (hreads' : Reads layout' tokens')
    (hfirst : firstKeys tokens = firstKeys tokens') (source : σ) :
    SameParts tokens tokens' (generate rule layout source) (generate rule layout' source) ∨
      Integer.digitLimit < (Nat.toDigits 10 rule.ticks).length ∧
        (FailsAtPause rule tokens (generate rule layout source) ∨
          FailsAtPause rule tokens' (generate rule layout' source)) := by
  obtain heq | hfails := generate_eq rule hreads source
  · obtain heq' | hfails' := generate_eq rule hreads' source
    · left
      rw [heq, heq', hfirst]
      exact sameParts_lookUp tokens tokens' _
    · exact .inr ⟨hfails'.digitLimit_lt hunit, .inr hfails'⟩
  · exact .inr ⟨hfails.digitLimit_lt hunit, .inl hfails⟩

/-- Repetitions and pauses before, between and behind two parts, the second of which is made
again. -/
theorem generate_same_parts_repeated :
    let _ := Machine.small
    let rule : PartRule := ⟨⟨[⟨'A', [['0'], ['1']], by simp⟩]⟩, 1, true, none⟩
    (generate rule "A1,A2".toList [0, 0, 1]).text = .ok "0,1".toList ∧
      SameParts [.part 'A' '1', .part 'A' '2']
        [.pause, .part 'A' '1', .part 'A' '1', .pause, .part 'A' '2', .part 'A' '1']
        (generate rule "A1,A2".toList [0, 0, 1])
        (generate rule "-,A1*2,-,A2,A1".toList [0, 0, 1]) := by
  intro machine rule
  refine ⟨by decide +kernel, (generate_same_parts rfl ?_ ?_ ?_ _).resolve_right ?_⟩
  · exact ⟨"A1,A2".toList, by decide +kernel, by decide +kernel⟩
  · exact ⟨"-,A1,A1,-,A2,A1".toList, by decide +kernel, by decide +kernel⟩
  · decide
  · exact fun hlong => absurd hlong.1 (by decide +kernel)

/-- The token of the part `A1`. -/
def firstPart : Shorthand.Leaf where
  text := ['A', '1']
  tight := ⟨by rintro _ ⟨⟩; decide, by rintro _ ⟨⟩; decide⟩
  inside := List.forall_mem_cons.2 ⟨by decide, List.forall_mem_singleton.2 (by decide)⟩
  unrepeated := by
    intro body digits _ _ htext
    have hstar : '*' ∈ body ++ '*' :: digits := List.mem_append_right _ List.mem_cons_self
    rw [← htext] at hstar
    exact absurd hstar (by decide)

/-- A pause that is too long to be written fails where the part alone does not, and so does a count
that is too long to be read, however small it is. -/
theorem generate_differs_of_long :
    let _ := Machine.small
    let whole : Text := Text.commaJoin [longestPause, "-/1".toList]
    let long : PartRule := ⟨⟨[⟨'A', [whole], by simp⟩]⟩, 10 ^ Integer.digitLimit, true, none⟩
    let short : PartRule := ⟨⟨[⟨'A', [['0']], by simp⟩]⟩, 1, true, none⟩
    let count := Shorthand.Count.paddedOne Integer.digitLimit
    Reads firstPart.text [.part 'A' '1'] ∧ Reads "-,A1".toList [.pause, .part 'A' '1'] ∧
      firstKeys [.part 'A' '1'] = firstKeys [.pause, .part 'A' '1'] ∧
      (generate long firstPart.text ([] : List Nat)).result = .ok [whole] ∧
      (generate long "-,A1".toList ([] : List Nat)).result = .error (.invalid .integerLength) ∧
      (generate short firstPart.text ([] : List Nat)).result = .ok [['0']] ∧
      (generate short (firstPart.text ++ '*' :: count.digits) ([] : List Nat)).result =
        .error (.invalid (.integerTextLength count.digits.length)) := by
  have hpositive := Integer.two_lt_limit
  have hlong := Integer.write_eq_error (Nat.le_refl (10 ^ Integer.digitLimit))
  have hpause := lasts_longestPause
  have hdigits :
      Integer.digitLimit < (Shorthand.Count.paddedOne Integer.digitLimit).digits.length := by
    rw [Shorthand.Count.length_paddedOne]
    exact Nat.lt_succ_self _
  -- how large the limits are does not matter from here on, and is not to be computed
  generalize 10 ^ Integer.digitLimit = limit at hpositive hlong hpause ⊢
  generalize longestPause = pause at hpause ⊢
  generalize Shorthand.Count.paddedOne Integer.digitLimit = count at hdigits ⊢
  intro machine whole long short count
  have hwhole : Length.Lasts none whole limit := by
    have hlast : Length.Lasts none "-/1".toList 1 := by
      unfold Length.Lasts
      decide +kernel
    have := Length.lasts_commaJoin (List.cons_ne_nil _ _) (.cons hpause (.cons hlast .nil))
    rwa [show Cycle.total id [limit - 1, 1] = limit by simp [Cycle.total]; omega] at this
  let g : FragmentGroup := ⟨'A', [whole], by simp⟩
  have hfills : Fills long 'A' fillLimit [[whole]] (.ok (Text.commaJoin [whole])) :=
    .full (.full hwhole)
  have hpicks : Source.Picks g.fragments g.nonempty ([] : List Nat) [whole] [] := .cons rfl .nil
  have hmake : makePart long [] 'A' '1' ([] : List Nat) = (.ok whole, []) := by
    rw [makePart, show long.groups.find? 'A' = some g from rfl]
    refine (fillWithin_of_fills hfills hpicks).trans ?_
    rw [Text.commaJoin, List.intercalate_singleton]
  have hreads : Reads firstPart.text [.part 'A' '1'] :=
    ⟨firstPart.text, by decide +kernel, by decide +kernel⟩
  have hreads' : Reads "-,A1".toList [.pause, .part 'A' '1'] :=
    ⟨"-,A1".toList, by decide +kernel, by decide +kernel⟩
  refine ⟨hreads, hreads', by decide, ?_, ?_, by decide +kernel, ?_⟩
  · have hparts : makeParts long [] (firstKeys [.part 'A' '1']) ([] : List Nat) =
        ⟨[⟨'A', '1', whole⟩], .ok [whole], []⟩ := by
      rw [show firstKeys [.part 'A' '1'] = [('A', '1')] by decide, makeParts, hmake]
      rfl
    obtain heq | hfails := generate_eq long hreads ([] : List Nat)
    · rw [heq, lookUp, hparts]
      rfl
    · exact absurd hfails.1 (by decide)
  · rw [generate, show Shorthand.tokens "-,A1".toList = .ok [['-'], ['A', '1']] by decide +kernel]
    simp only [layTokens, show LayoutToken.read ['-'] = .ok .pause by decide +kernel]
    rw [pauseText, hlong]
    rfl
  · rw [generate, Shorthand.tokens_star_of_long firstPart count hdigits]

end Layout

end Songsmith
