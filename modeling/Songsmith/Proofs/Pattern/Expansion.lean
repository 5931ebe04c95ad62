import Songsmith.Pattern.Shorthand
import Songsmith.Proofs.Outcome
import Songsmith.Proofs.Text.Parts

/-!
# Expanded shorthand

The expansion of a text is its tokens with commas between them, and it is cut into these tokens
again at its commas (`Shorthand.splitOn_expand`): there is a token, and none of them holds a comma
(`Shorthand.tokensWithin_inv`). A comma that is not cut at stands inside parentheses, so a piece
that holds one holds an opening parenthesis (`Shorthand.splitFrom_inv`), and such a piece is either
a group, which is expanded in turn, or refused.
-/

namespace Songsmith

/-- A machine with little room, for examples. -/
@[reducible] def Machine.small : Machine := ⟨9, 99, by decide⟩

/-- A list that is repeated at all is repeated in full. -/
theorem Cycle.eq_of_repeated [Machine] {α : Type} {count : Nat} {items copies : List α}
    (h : repeated count items = .ok copies) : copies = (List.replicate count items).flatten := by
  unfold repeated at h
  split at h
  · cases h
  · split at h
    · cases h
    · cases h
      rfl

/-- A list that is repeated keeps its elements. -/
theorem Cycle.repeated_inv [Machine] {α : Type} {count : Nat} {items copies : List α}
    (hcount : 0 < count) (hne : items ≠ []) (h : repeated count items = .ok copies) :
    copies ≠ [] ∧ copies ⊆ items := by
  obtain rfl := eq_of_repeated h
  constructor
  · obtain ⟨n, rfl⟩ := Nat.exists_eq_add_of_lt hcount
    simp [List.replicate_succ, hne]
  · intro x hx
    obtain ⟨xs, hxs, hx⟩ := List.mem_flatten.1 hx
    rwa [List.eq_of_mem_replicate hxs] at hx

namespace Shorthand

/-- A piece that holds a comma holds an opening parenthesis, if what has been read of it does: an
open one inside parentheses, and one before a comma that was not cut at. -/
theorem splitFrom_inv {whole current text : Text} {depth : Nat} {pieces : List Text}
    (hcurrent : 0 < depth ∨ ',' ∈ current → '(' ∈ current)
    (h : splitFrom whole depth current text = .ok pieces) :
    pieces ≠ [] ∧ ∀ piece ∈ pieces, ',' ∈ piece → '(' ∈ piece := by
  fun_induction splitFrom whole depth current text generalizing pieces with
  | case1 current =>
    cases h
    refine ⟨List.cons_ne_nil _ _, fun piece hpiece hcomma => ?_⟩
    rw [List.mem_singleton] at hpiece
    subst hpiece
    exact List.mem_reverse.2 (hcurrent (.inr (List.mem_reverse.1 hcomma)))
  | case2 => cases h
  | case3 depth current rest ih => exact ih (fun _ => List.mem_cons_self) h
  | case4 => cases h
  | case5 depth current rest ih =>
    exact ih (fun _ => List.mem_cons_of_mem _ (hcurrent (.inl (Nat.succ_pos _)))) h
  | case6 current rest ih =>
    obtain ⟨pieces, hpieces, rfl⟩ := Outcome.map_eq_ok_iff.1 h
    obtain ⟨-, hrest⟩ := ih (by simp) hpieces
    refine ⟨List.cons_ne_nil _ _, fun piece hpiece hcomma => ?_⟩
    rcases List.mem_cons.1 hpiece with rfl | hpiece
    · exact List.mem_reverse.2 (hcurrent (.inr (List.mem_reverse.1 hcomma)))
    · exact hrest piece hpiece hcomma
  | case7 depth current c rest hopen _ _ hcomma ih =>
    refine ih (fun hdepth => List.mem_cons_of_mem _ (hcurrent ?_)) h
    rw [List.mem_cons] at hdepth
    rcases hdepth with hdepth | rfl | hmem
    · exact .inl hdepth
    · exact .inl (Nat.pos_of_ne_zero fun hzero => hcomma hzero rfl)
    · exact .inr hmem

/-- A repetition is a body, a star and digits. -/
theorem repetition?_inv {item body digits : Text} (h : repetition? item = some (body, digits)) :
    item = body ++ '*' :: digits ∧ digits ≠ [] ∧
      ∀ c ∈ digits, Text.isDecimalDigit c = true := by
  unfold repetition? at h
  simp only at h
  split at h
  · rename_i d digits' rest hdigits hrest
    cases h
    refine ⟨?_, by rw [hdigits]; exact List.cons_ne_nil _ _,
      fun c hc => List.mem_takeWhile_imp (List.mem_reverse.1 hc)⟩
    have hitem := List.takeWhile_append_dropWhile (p := Text.isDecimalDigit) (l := item.reverse)
    rw [hrest] at hitem
    calc item = item.reverse.reverse := item.reverse_reverse.symm
      _ = (List.takeWhile Text.isDecimalDigit item.reverse ++ '*' :: rest).reverse := by rw [hitem]
      _ = rest.reverse ++ '*' :: (List.takeWhile Text.isDecimalDigit item.reverse).reverse := by
        rw [List.reverse_append, List.reverse_cons, List.append_assoc, List.singleton_append]
  · cases h

/-- The body of an item is a part of it and keeps its parentheses, and it stands there at least
once. -/
theorem itemParts_inv {whole item body : Text} {count : Nat}
    (h : itemParts whole item = .ok (body, count)) :
    0 < count ∧ body ⊆ item ∧ ('(' ∈ item → '(' ∈ body) := by
  have hparen : Text.isBlankChar '(' = false := by decide
  unfold itemParts at h
  split at h
  · cases h
    exact ⟨Nat.one_pos, fun c hc => Text.mem_of_mem_trimBy hc,
      fun hmem => Text.mem_trimBy_of_mem hmem hparen⟩
  · rename_i body' digits hrepetition
    obtain ⟨n, -, h⟩ := Outcome.bind_eq_ok_iff.1 h
    split at h
    · cases h
    · rename_i hcount
      cases h
      obtain ⟨hitem, -, hdigits⟩ := repetition?_inv hrepetition
      refine ⟨by omega, fun c hc => ?_, fun hmem => ?_⟩
      · refine Text.mem_of_mem_trimBy (p := Text.isBlankChar) ?_
        rw [Text.trim] at hitem
        rw [hitem]
        exact List.mem_append_left _ (Text.mem_of_mem_trimBy hc)
      · have hmem := Text.mem_trimBy_of_mem hmem hparen
        rw [Text.trim] at hitem
        rw [hitem, List.mem_append, List.mem_cons] at hmem
        rcases hmem with hmem | hstar | hmem
        · exact Text.mem_trimBy_of_mem hmem hparen
        · cases hstar
        · exact absurd (hdigits _ hmem) (by decide)

/-- A text stands for at least one token, and no token holds a comma. -/
theorem tokensWithin_inv [Machine] {depth : Nat} {text : Text} {tokens : List Text}
    (h : tokensWithin depth text = .ok tokens) : tokens ≠ [] ∧ ∀ token ∈ tokens, ',' ∉ token := by
  induction depth generalizing text tokens with
  | zero => cases h
  | succ depth ih =>
    obtain ⟨items, hitems, h⟩ := Outcome.bind_eq_ok_iff.1 h
    obtain ⟨parts, hparts, h⟩ := Outcome.bind_eq_ok_iff.1 h
    cases h
    obtain ⟨hne, hpieces⟩ := splitFrom_inv (by simp) hitems
    have hpart : ∀ part ∈ parts, part ≠ [] ∧ ∀ token ∈ part, ',' ∉ token := by
      intro part hpart
      obtain ⟨item, hitem, h⟩ :=
        Outcome.exists_rel_of_mem (Outcome.mapM_eq_ok_iff.1 hparts) hpart
      obtain ⟨⟨body, count⟩, hbody, h⟩ := Outcome.bind_eq_ok_iff.1 h
      obtain ⟨hcount, hsubset, hparen⟩ := itemParts_inv hbody
      simp only at h
      split at h
      · obtain ⟨inner, hinner, h⟩ := Outcome.bind_eq_ok_iff.1 h
        obtain ⟨hne, hcomma⟩ := ih hinner
        obtain ⟨hne', hrepeated⟩ := Cycle.repeated_inv hcount hne h
        exact ⟨hne', fun token htoken => hcomma token (hrepeated htoken)⟩
      · split at h
        · cases h
        · rename_i hplain
          -- a comma would have brought a parenthesis with it, which is refused here
          obtain ⟨hne, hrepeated⟩ := Cycle.repeated_inv hcount (List.cons_ne_nil _ _) h
          refine ⟨hne, fun token htoken hcomma => hplain ?_⟩
          obtain rfl : token = body := List.mem_singleton.1 (hrepeated htoken)
          have hopen : '(' ∈ token := hparen (hpieces item hitem (hsubset hcomma))
          rw [List.contains_iff_mem.2 hopen, Bool.true_or]
    constructor
    · obtain ⟨item, rest, rfl⟩ := List.exists_cons_of_ne_nil hne
      cases Outcome.mapM_eq_ok_iff.1 hparts with
      | @cons _ part _ rest' _ _ =>
        have hfirst := (hpart part List.mem_cons_self).1
        simp [hfirst]
    · intro token htoken
      obtain ⟨part, hmem, htoken⟩ := List.mem_flatten.1 htoken
      exact (hpart part hmem).2 token htoken

/-- The expansion of a text is cut into the tokens that the text stands for. -/
theorem splitOn_expand [Machine] {text : Text} {tokens : List Text}
    (h : Shorthand.tokens text = .ok tokens) :
    expand text = .ok (Text.commaJoin tokens) ∧ (Text.commaJoin tokens).splitOn ',' = tokens := by
  obtain ⟨hne, hcomma⟩ := tokensWithin_inv h
  exact ⟨by rw [expand, h]; rfl, List.splitOn_intercalate ',' hcomma hne⟩

end Shorthand

end Songsmith
