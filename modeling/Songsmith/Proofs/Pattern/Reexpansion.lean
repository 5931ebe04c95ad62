import Songsmith.Proofs.Pattern.Unrolling

/-!
# Expanding twice

An expansion has no parentheses, but it may have shorthand in it: the token of a repetition is taken
as it stands, also if it ends in a star and digits itself (`Shorthand.EndsInCount`). Expanding once
more then goes on where the first time left off. So an expansion is expanded to itself exactly if
none of its tokens ends so, and a token that does was written with a second count behind it
(`Shorthand.expand_again`).

Both halves follow a token back to the item that it comes from, which is a part of the text
(`Shorthand.exists_item_of_mem_tokensWithin`). What is known of such tokens (`Shorthand.Bare`) is
enough to say what each one expands to, and an expansion of as many tokens repeats none of them
(`Shorthand.eq_map_singleton_of_flatten`).
-/

namespace Songsmith.Shorthand

/-- The text ends in a star and digits. -/
def EndsInCount (text : Text) : Prop :=
  ∃ body digits : Text, digits ≠ [] ∧ (∀ c ∈ digits, Text.isDecimalDigit c = true) ∧
    text = body ++ '*' :: digits

/-- A token as expansion leaves it: without blanks around it, and without parentheses and commas. -/
structure Bare (token : Text) : Prop where
  tight : Text.Tight Text.isBlankChar token
  inside : ∀ c ∈ token, c ≠ '(' ∧ c ≠ ')' ∧ c ≠ ','

section
variable {whole text item body token : Text} {depth count : Nat}

/-- An item is no repetition exactly if it does not end in a count. -/
theorem repetition?_eq_none_iff : repetition? text = none ↔ ¬ EndsInCount text := by
  constructor
  · rintro hnone ⟨body, digits, hne, hdigits, rfl⟩
    rw [repetition?_star hne hdigits] at hnone
    cases hnone
  · intro h
    exact repetition?_eq_none fun body digits hne hdigits htext =>
      h ⟨body, digits, hne, hdigits, htext⟩

/-! ## Where a token comes from -/

/-- A trimmed text is a part of the text. -/
theorem isInfix_trim (text : Text) : Text.trim text <:+: text := by
  obtain ⟨pre, post, htext, -, -⟩ := Text.exists_append_trimBy Text.isBlankChar text
  exact ⟨pre, post, htext.symm⟩

/-- A piece is a part of the text, or of what stands in front of it. -/
theorem isInfix_of_splitFrom {current : Text} {pieces : List Text}
    (h : splitFrom whole depth current text = .ok pieces) :
    ∀ piece ∈ pieces, piece <:+: current.reverse ++ text := by
  fun_induction splitFrom whole depth current text generalizing pieces with
  | case1 current =>
    cases h
    simp
  | case2 => cases h
  | case3 depth current rest ih => simpa using ih h
  | case4 => cases h
  | case5 depth current rest ih => simpa using ih h
  | case6 current rest ih =>
    obtain ⟨pieces, hpieces, rfl⟩ := Outcome.map_eq_ok_iff.1 h
    refine List.forall_mem_cons.2 ⟨(List.prefix_append _ _).isInfix, fun piece hpiece => ?_⟩
    have hrest : piece <:+: rest := ih hpieces piece hpiece
    exact hrest.trans ((List.suffix_cons _ _).trans (List.suffix_append _ _)).isInfix
  | case7 depth current c rest _ _ _ _ ih => simpa using ih h

/-- The body of an item is the trimmed item, or what stands before the count of the trimmed item. -/
theorem itemParts_cases (h : itemParts whole item = .ok (body, count)) :
    (repetition? (Text.trim item) = none ∧ body = Text.trim item ∧ count = 1) ∨
      ∃ front digits, repetition? (Text.trim item) = some (front, digits) ∧
        body = Text.trim front ∧ 0 < count := by
  unfold itemParts at h
  split at h
  · rename_i hnone
    cases h
    exact .inl ⟨hnone, rfl, rfl⟩
  · rename_i front digits hrepetition
    obtain ⟨n, -, h⟩ := Outcome.bind_eq_ok_iff.1 h
    split at h
    · cases h
    · cases h
      exact .inr ⟨front, digits, hrepetition, rfl, by omega⟩

/-- The body of an item is a part of it. -/
theorem isInfix_of_itemParts (h : itemParts whole item = .ok (body, count)) : body <:+: item := by
  rcases itemParts_cases h with ⟨-, rfl, -⟩ | ⟨front, digits, hrepetition, rfl, -⟩
  · exact isInfix_trim item
  · obtain ⟨hitem, -, -⟩ := repetition?_inv hrepetition
    have hfront : front <:+: Text.trim item := ⟨[], '*' :: digits, hitem.symm⟩
    exact ((isInfix_trim front).trans hfront).trans (isInfix_trim item)

/-- The body of an item has no blanks around it. -/
theorem tight_of_itemParts (h : itemParts whole item = .ok (body, count)) :
    Text.Tight Text.isBlankChar body := by
  rcases itemParts_cases h with ⟨-, rfl, -⟩ | ⟨front, _, -, rfl, -⟩
  · exact Text.tight_trimBy _ item
  · exact Text.tight_trimBy _ front

/-- A body that ends in a count was written with another one behind it. -/
theorem exists_chained_of_itemParts (h : itemParts whole item = .ok (body, count))
    (hends : EndsInCount body) : ∃ between digits : Text, Blanks between ∧ digits ≠ [] ∧
      (∀ c ∈ digits, Text.isDecimalDigit c = true) ∧
      body ++ between ++ '*' :: digits <:+: item := by
  rcases itemParts_cases h with ⟨hnone, rfl, -⟩ | ⟨front, digits, hrepetition, rfl, -⟩
  · exact absurd hends (repetition?_eq_none_iff.1 hnone)
  · obtain ⟨hitem, hne, hdigits⟩ := repetition?_inv hrepetition
    obtain ⟨pre, between, hfront, -, hblanks⟩ := Text.exists_append_trimBy Text.isBlankChar front
    refine ⟨between, digits, hblanks, hne, hdigits, List.IsInfix.trans ?_ (isInfix_trim item)⟩
    refine ⟨pre, [], ?_⟩
    conv_rhs => rw [hitem, hfront]
    simp [Text.trim]

/-- The text of a group is a part of it. -/
theorem isInfix_of_group? {inner : Text} (h : group? body = some inner) : inner <:+: body := by
  unfold group? at h
  split at h
  · rename_i rest
    split at h
    · cases h
      exact (List.dropLast_prefix rest).isInfix.trans (List.suffix_cons _ _).isInfix
    · cases h
  · cases h

/-- A token of an item is the body of the item, or a token of the group that the body is. -/
theorem mem_itemTokens [Machine] {part : List Text} (h : itemTokens depth whole item = .ok part)
    (hmem : token ∈ part) : ∃ body count, itemParts whole item = .ok (body, count) ∧
      ((∃ inner tokens, group? body = some inner ∧ tokensWithin depth inner = .ok tokens ∧
        token ∈ tokens) ∨ (token = body ∧ '(' ∉ body ∧ ')' ∉ body)) := by
  obtain ⟨⟨body, count⟩, hparts, h⟩ := Outcome.bind_eq_ok_iff.1 h
  refine ⟨body, count, hparts, ?_⟩
  simp only at h
  split at h
  · rename_i inner hgroup
    obtain ⟨tokens, htokens, h⟩ := Outcome.bind_eq_ok_iff.1 h
    rw [Cycle.eq_of_repeated h] at hmem
    obtain ⟨copy, hcopy, hmem⟩ := List.mem_flatten.1 hmem
    rw [List.eq_of_mem_replicate hcopy] at hmem
    exact .inl ⟨inner, tokens, hgroup, htokens, hmem⟩
  · split at h
    · cases h
    · rename_i hplain
      rw [Cycle.eq_of_repeated h, List.flatten_replicate_singleton] at hmem
      simp only [Bool.or_eq_true, List.contains_iff_mem, not_or] at hplain
      exact .inr ⟨List.eq_of_mem_replicate hmem, hplain⟩

/-- A token of an expansion is the body of an item that is a part of the text. -/
theorem exists_item_of_mem_tokensWithin [Machine] {tokens : List Text}
    (h : tokensWithin depth text = .ok tokens) (hmem : token ∈ tokens) :
    ∃ whole item count, item <:+: text ∧ itemParts whole item = .ok (token, count) ∧
      '(' ∉ token ∧ ')' ∉ token := by
  induction depth generalizing text tokens with
  | zero => cases h
  | succ depth ih =>
    rw [tokensWithin_succ] at h
    obtain ⟨items, hitems, h⟩ := Outcome.bind_eq_ok_iff.1 h
    obtain ⟨parts, hparts, rfl⟩ := Outcome.map_eq_ok_iff.1 h
    obtain ⟨part, hpart, hmem⟩ := List.mem_flatten.1 hmem
    obtain ⟨item, hitem, hpart⟩ := Outcome.exists_rel_of_mem (Outcome.mapM_eq_ok_iff.1 hparts) hpart
    have hinfix : item <:+: text := isInfix_of_splitFrom hitems item hitem
    obtain ⟨body, count, hbody, ⟨inner, tokens, hgroup, hinner, hmem⟩ | ⟨rfl, hopen, hclose⟩⟩ :=
      mem_itemTokens hpart hmem
    · obtain ⟨whole, item', count', hitem', hparts'⟩ := ih hinner hmem
      have hinner := (isInfix_of_group? hgroup).trans (isInfix_of_itemParts hbody)
      exact ⟨whole, item', count', (hitem'.trans hinner).trans hinfix, hparts'⟩
    · exact ⟨text, item, count, hinfix, hbody, hopen, hclose⟩

/-- A token of an expansion is bare. -/
theorem bare_of_mem_tokensWithin [Machine] {tokens : List Text}
    (h : tokensWithin depth text = .ok tokens) (hmem : token ∈ tokens) : Bare token := by
  obtain ⟨whole, item, count, -, hparts, hopen, hclose⟩ := exists_item_of_mem_tokensWithin h hmem
  refine ⟨tight_of_itemParts hparts, fun c hc => ⟨?_, ?_, ?_⟩⟩
  · rintro rfl
    exact hopen hc
  · rintro rfl
    exact hclose hc
  · rintro rfl
    exact (tokensWithin_inv h).2 token hmem hc

/-! ## What a token expands to -/

/-- A bare token stands for itself, unless it ends in a count. -/
theorem Bare.itemTokens_eq [Machine] (h : Bare token) (hends : ¬ EndsInCount token) :
    itemTokens depth whole token = .ok [token] := by
  let leaf : Leaf := ⟨token, h.tight, h.inside, fun body digits hne hdigits htext =>
    hends ⟨body, digits, hne, hdigits, htext⟩⟩
  have hleaf : itemTokens depth whole ([] ++ token ++ star [] none ++ []) =
      readTimes none >>= (Cycle.repeated · [token]) := itemTokens_leaf leaf nofun nofun nofun
  rw [star, List.nil_append, List.append_nil, List.append_nil] at hleaf
  have hone : Cycle.repeated 1 [token] = .ok [token] :=
    (Limited.repeated 1 [token]).eq_ok ⟨by decide, Machine.items_pos⟩
  exact hleaf.trans hone

/-- A token expands to copies of one text, at least one, which is shorter than the token if that
ends in a count. -/
theorem Bare.exists_replicate [Machine] (h : Bare token) {part : List Text}
    (hpart : itemTokens depth whole token = .ok part) : ∃ count body, 0 < count ∧
      part = List.replicate count body ∧ (EndsInCount token → body.length < token.length) := by
  obtain ⟨⟨body, count⟩, hparts, hpart⟩ := Outcome.bind_eq_ok_iff.1 hpart
  have hinside : ∀ c ∈ body, c ≠ '(' ∧ c ≠ ')' ∧ c ≠ ',' := fun c hc =>
    h.inside c ((isInfix_of_itemParts hparts).subset hc)
  simp only [group?_inside hinside] at hpart
  split at hpart
  · cases hpart
  · refine ⟨count, body, (itemParts_inv hparts).1, ?_, fun hends => ?_⟩
    · rw [Cycle.eq_of_repeated hpart, List.flatten_replicate_singleton]
    · have htrim : Text.trim token = token := h.tight.trimBy_eq
      rcases itemParts_cases hparts with ⟨hnone, -, -⟩ | ⟨front, digits, hrepetition, rfl, -⟩
      · rw [htrim] at hnone
        exact absurd hends (repetition?_eq_none_iff.1 hnone)
      · rw [htrim] at hrepetition
        obtain ⟨htoken, -, -⟩ := repetition?_inv hrepetition
        have hlength := congrArg List.length htoken
        have hle := (isInfix_trim front).length_le
        simp only [List.length_append, List.length_cons] at hlength
        omega

/-- A character of joined tokens is a comma or one of a token. -/
theorem mem_commaJoin {tokens : List Text} {c : Char} (h : c ∈ Text.commaJoin tokens) :
    c = ',' ∨ ∃ token ∈ tokens, c ∈ token := by
  induction tokens with
  | nil => cases h
  | cons token tokens ih =>
    cases tokens with
    | nil =>
      rw [Text.commaJoin, List.intercalate_singleton] at h
      exact .inr ⟨token, List.mem_singleton_self _, h⟩
    | cons next tokens =>
      rw [Text.commaJoin, List.intercalate_cons_cons, List.append_assoc, List.mem_append,
        List.singleton_append, List.mem_cons] at h
      rcases h with h | h | h
      · exact .inr ⟨token, List.mem_cons_self, h⟩
      · exact .inl h
      · exact (ih h).imp_right fun ⟨t, ht, hc⟩ => ⟨t, List.mem_cons_of_mem _ ht, hc⟩

/-- Bare tokens with commas between them are cut into them. -/
theorem cuts_commaJoin {tokens : List Text} (hne : tokens ≠ [])
    (h : ∀ token ∈ tokens, Bare token) : Cuts (Text.commaJoin tokens) tokens := by
  induction tokens with
  | nil => exact absurd rfl hne
  | cons token tokens ih =>
    have htoken : Cuts token [token] :=
      (passes_of_inside (h token List.mem_cons_self).inside).cuts
    cases tokens with
    | nil =>
      rw [Text.commaJoin, List.intercalate_singleton]
      exact htoken
    | cons next tokens =>
      have hrest := ih (List.cons_ne_nil _ _) fun t ht => h t (List.mem_cons_of_mem _ ht)
      rw [Text.commaJoin, List.intercalate_cons_cons, List.append_assoc]
      exact htoken.append hrest

end

/-- Parts of which none is empty, and which together have as many elements as there are parts, hold
one element each. -/
theorem eq_map_singleton_of_flatten {α : Type} {parts : List (List α)}
    (hne : ∀ part ∈ parts, part ≠ []) (hlength : parts.flatten.length = parts.length) :
    parts = parts.flatten.map fun x => [x] := by
  have hle : ∀ {parts : List (List α)}, (∀ part ∈ parts, part ≠ []) →
      parts.length ≤ parts.flatten.length := by
    intro parts hne
    induction parts with
    | nil => exact Nat.le_refl _
    | cons part parts ih =>
      have hpart := List.length_pos_iff.2 (hne part List.mem_cons_self)
      have hrest := ih fun p hp => hne p (List.mem_cons_of_mem _ hp)
      rw [List.flatten_cons, List.length_append, List.length_cons]
      omega
  induction parts with
  | nil => rfl
  | cons part parts ih =>
    have hpart := List.length_pos_iff.2 (hne part List.mem_cons_self)
    have hrest : ∀ p ∈ parts, p ≠ [] := fun p hp => hne p (List.mem_cons_of_mem _ hp)
    have hatLeast := hle hrest
    rw [List.flatten_cons, List.length_append, List.length_cons] at hlength
    obtain ⟨x, rfl⟩ := List.length_eq_one_iff.1 (show part.length = 1 by omega)
    rw [List.length_singleton] at hlength
    rw [List.flatten_cons, List.map_append, ← ih hrest (by omega)]
    rfl

/-! ## Expanding an expansion -/

section
variable [Machine] {tokens : List Text}

/-- The tokens of an expansion are expanded one by one. -/
theorem tokens_commaJoin (hne : tokens ≠ []) (h : ∀ token ∈ tokens, Bare token) :
    ∃ depth, Shorthand.tokens (Text.commaJoin tokens) =
      (tokens.mapM (itemTokens depth (Text.commaJoin tokens))).map List.flatten := by
  refine ⟨Machine.groups, ?_⟩
  rw [Shorthand.tokens, tokensWithin_succ, splitTopLevel, (cuts_commaJoin hne h).last]
  rfl

/-- What is expanded to itself has no token that ends in a count: each token stands for itself, and
not for a shorter text. -/
theorem not_endsInCount_of_tokens_eq (hne : tokens ≠ []) (h : ∀ token ∈ tokens, Bare token)
    (hsame : Shorthand.tokens (Text.commaJoin tokens) = .ok tokens) :
    ∀ token ∈ tokens, ¬ EndsInCount token := by
  obtain ⟨depth, hdepth⟩ := tokens_commaJoin hne h
  rw [hdepth] at hsame
  obtain ⟨parts, hparts, hflatten⟩ := Outcome.map_eq_ok_iff.1 hsame
  have hexpands := Outcome.mapM_eq_ok_iff.1 hparts
  have hpart : ∀ part ∈ parts, part ≠ [] := by
    intro part hmem
    obtain ⟨token, htoken, hpart⟩ := Outcome.exists_rel_of_mem hexpands hmem
    obtain ⟨count, body, hcount, rfl, -⟩ := (h token htoken).exists_replicate hpart
    simp [Nat.ne_of_gt hcount]
  have hsingle := eq_map_singleton_of_flatten hpart (by rw [hflatten, hexpands.length_eq])
  rw [hsingle, hflatten, List.forall₂_map_right_iff, List.forall₂_same] at hexpands
  intro token htoken hends
  obtain ⟨count, body, hcount, hcopies, hshorter⟩ :=
    (h token htoken).exists_replicate (hexpands token htoken)
  have hbody := List.eq_of_mem_replicate (hcopies ▸ List.mem_singleton_self token)
  exact absurd (hshorter hends) (by rw [hbody]; exact Nat.lt_irrefl _)

/-- Tokens that do not end in counts are expanded to themselves. -/
theorem tokens_eq_of_not_endsInCount (hne : tokens ≠ []) (h : ∀ token ∈ tokens, Bare token)
    (hends : ∀ token ∈ tokens, ¬ EndsInCount token) :
    Shorthand.tokens (Text.commaJoin tokens) = .ok tokens := by
  obtain ⟨depth, hdepth⟩ := tokens_commaJoin hne h
  have hparts : tokens.mapM (itemTokens depth (Text.commaJoin tokens)) =
      .ok (tokens.map fun token => [token]) := by
    rw [Outcome.mapM_eq_ok_iff, List.forall₂_map_right_iff, List.forall₂_same]
    exact fun token htoken => (h token htoken).itemTokens_eq (hends token htoken)
  rw [hdepth, hparts]
  exact congrArg Except.ok (by rw [← List.flatMap_def, List.flatMap_singleton'])

end

/-- An expansion has no parentheses, and it is expanded to itself exactly if none of its tokens ends
in a star and digits. A token that does was written with another star and digits behind it. -/
theorem expand_again [Machine] {text result : Text} (h : expand text = .ok result) :
    (∀ c ∈ result, c ≠ '(' ∧ c ≠ ')') ∧
      (expand result = .ok result ↔ ∀ token ∈ result.splitOn ',', ¬ EndsInCount token) ∧
      ∀ token ∈ result.splitOn ',', EndsInCount token → ∃ between digits : Text,
        Blanks between ∧ digits ≠ [] ∧ (∀ c ∈ digits, Text.isDecimalDigit c = true) ∧
          token ++ between ++ '*' :: digits <:+: text := by
  obtain ⟨tokens, htokens, rfl⟩ := Outcome.map_eq_ok_iff.1 h
  have hbare : ∀ token ∈ tokens, Bare token := fun token => bare_of_mem_tokensWithin htokens
  have hne := (tokensWithin_inv htokens).1
  rw [(splitOn_expand htokens).2]
  refine ⟨fun c hc => ?_, ⟨fun hagain => ?_, fun hends => ?_⟩, fun token htoken hends => ?_⟩
  · rcases mem_commaJoin hc with rfl | ⟨token, htoken, hc⟩
    · decide
    · obtain ⟨hopen, hclose, -⟩ := (hbare token htoken).inside c hc
      exact ⟨hopen, hclose⟩
  · obtain ⟨tokens', htokens', hjoin⟩ := Outcome.map_eq_ok_iff.1 hagain
    obtain rfl : tokens' = tokens := by
      rw [← (splitOn_expand htokens').2, hjoin, (splitOn_expand htokens).2]
    exact not_endsInCount_of_tokens_eq hne hbare htokens'
  · rw [expand, tokens_eq_of_not_endsInCount hne hbare hends]
    rfl
  · obtain ⟨_, item, _, hitem, hparts, -, -⟩ := exists_item_of_mem_tokensWithin htokens htoken
    obtain ⟨between, digits, hblanks, hne, hdigits, hinfix⟩ :=
      exists_chained_of_itemParts hparts hends
    exact ⟨between, digits, hblanks, hne, hdigits, hinfix.trans hitem⟩

/-- A group with an odd token that is repeated: the expansion is expanded to itself. -/
theorem expand_again_group :
    let _ := Machine.small
    expand "( 0, *)*2".toList = .ok "0,*,0,*".toList ∧
      expand "0,*,0,*".toList = .ok "0,*,0,*".toList := by
  intro machine
  have h : @expand .small "( 0, *)*2".toList = .ok "0,*,0,*".toList := by decide +kernel
  refine ⟨h, (expand_again h).2.1.2 fun token htoken => ?_⟩
  rw [← repetition?_eq_none_iff]
  revert token
  decide +kernel

/-- The token of a repetition is a repetition itself, and is left as it stands. Expansion is not
idempotent. -/
theorem expand_chained :
    let _ := Machine.small
    expand "0*2*3".toList = .ok "0*2,0*2,0*2".toList ∧
      expand "0*2,0*2,0*2".toList = .ok "0,0,0,0,0,0".toList ∧
      ¬ ∀ text result, expand text = .ok result → expand result = .ok result := by
  intro machine
  have hfirst : @expand .small "0*2*3".toList = .ok "0*2,0*2,0*2".toList := by decide +kernel
  have hagain : @expand .small "0*2,0*2,0*2".toList = .ok "0,0,0,0,0,0".toList := by
    decide +kernel
  refine ⟨hfirst, hagain, fun h => ?_⟩
  have hsame := h _ _ hfirst
  rw [hagain] at hsame
  exact absurd hsame (by decide)

end Songsmith.Shorthand
