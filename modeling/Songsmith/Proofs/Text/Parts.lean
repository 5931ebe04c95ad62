import Songsmith.Text.Blank
import Mathlib.Data.List.DropRight

/-!
# Trimming and cutting texts

A text that begins and ends outside a class of characters (`Text.Tight`) is what trimming leaves
(`Text.tight_trimBy`) and what trimming leaves alone (`Text.Tight.trimBy_eq`). The pieces into which
a text is cut at a separator hold its other characters and not the separator
(`Text.of_mem_splitOn`), so that a text put together from such pieces is cut into them again. A text
without blanks and commas (`Text.Solid`) is neither trimmed nor cut.
-/

namespace Songsmith.Text

section
variable {p : Char → Bool} {text : Text}

/-- The text neither begins nor ends with a character of the class. -/
structure Tight (p : Char → Bool) (text : Text) : Prop where
  head : ∀ c, text.head? = some c → p c = false
  last : ∀ c, text.getLast? = some c → p c = false

/-- Nothing is dropped from an end that stays. -/
theorem dropEndWhile_eq_self (last : ∀ c, text.getLast? = some c → p c = false) :
    dropEndWhile p text = text := by
  refine List.rdropWhile_eq_self_iff.2 fun hne => ?_
  rw [last _ (List.getLast?_eq_some_getLast hne)]
  exact Bool.false_ne_true

/-- Nothing is dropped from a start that stays. -/
theorem dropWhile_eq_self (head : ∀ c, text.head? = some c → p c = false) :
    text.dropWhile p = text := by
  cases text with
  | nil => rfl
  | cons c text => exact List.dropWhile_cons_of_neg (by rw [head c rfl]; exact Bool.false_ne_true)

/-- A part in the class ends where a text begins outside it. -/
theorem takeWhile_append {pre : Text} (hpre : ∀ c ∈ pre, p c = true)
    (head : ∀ c, text.head? = some c → p c = false) : (pre ++ text).takeWhile p = pre := by
  have hnone : text.takeWhile p = [] := by
    cases text with
    | nil => rfl
    | cons c text =>
      exact List.takeWhile_cons_of_neg (by rw [head c rfl]; exact Bool.false_ne_true)
  rw [List.takeWhile_append_of_pos hpre, hnone, List.append_nil]

/-- Only what is to be dropped is dropped in front of a start that stays. -/
theorem dropWhile_append {pre : Text} (hpre : ∀ c ∈ pre, p c = true)
    (head : ∀ c, text.head? = some c → p c = false) : (pre ++ text).dropWhile p = text := by
  rw [List.dropWhile_append_of_pos hpre, dropWhile_eq_self head]

/-- Nothing is trimmed at an end outside the class. -/
theorem trimBy_of_last (last : ∀ c, text.getLast? = some c → p c = false) :
    trimBy p text = text.dropWhile p := by
  refine dropEndWhile_eq_self fun c hc => last c ?_
  obtain ⟨pre, hpre⟩ := List.dropWhile_suffix (l := text) p
  rw [← hpre, List.getLast?_append, hc]
  rfl

/-- A tight text is trimmed already. -/
theorem Tight.trimBy_eq (h : Tight p text) : trimBy p text = text := by
  rw [trimBy_of_last h.last, dropWhile_eq_self h.head]

/-- Trimming makes a text tight. -/
theorem tight_trimBy (p : Char → Bool) (text : Text) : Tight p (trimBy p text) where
  head := by
    intro c hc
    -- what is cut off at the end leaves a part at the front, with the same first character
    obtain ⟨post, hpost⟩ := List.rdropWhile_prefix p (l := text.dropWhile p)
    have hhead := List.head?_dropWhile_not p text
    have hfirst : (text.dropWhile p).head? = some c := by
      rw [← hpost, List.head?_append]
      exact Option.or_eq_some_iff.2 (.inl hc)
    rw [hfirst] at hhead
    exact hhead
  last := by
    intro c hc
    have hne : trimBy p text ≠ [] := fun hnil => by rw [hnil] at hc; cases hc
    rw [List.getLast?_eq_some_getLast hne, Option.some.injEq] at hc
    rw [← hc]
    exact Bool.eq_false_iff.2 (List.rdropWhile_last_not p (text.dropWhile p) hne)

/-- Trimming takes characters of the class away at both ends. -/
theorem exists_append_trimBy (p : Char → Bool) (text : Text) :
    ∃ pre post : Text, text = pre ++ trimBy p text ++ post ∧ (∀ c ∈ pre, p c = true) ∧
      ∀ c ∈ post, p c = true := by
  have hend : text.dropWhile p =
      trimBy p text ++ ((text.dropWhile p).reverse.takeWhile p).reverse := by
    rw [trimBy, dropEndWhile, ← List.reverse_append, List.takeWhile_append_dropWhile,
      List.reverse_reverse]
  refine ⟨text.takeWhile p, ((text.dropWhile p).reverse.takeWhile p).reverse, ?_, ?_, ?_⟩
  · rw [List.append_assoc, ← hend, List.takeWhile_append_dropWhile]
  · intro c hc
    exact List.mem_takeWhile_imp hc
  · intro c hc
    exact List.mem_takeWhile_imp (List.mem_reverse.1 hc)

/-- What is to be trimmed makes no difference in front of a text. -/
theorem trimBy_append_left {pre : Text} (hpre : ∀ c ∈ pre, p c = true) :
    trimBy p (pre ++ text) = trimBy p text := by
  rw [trimBy, List.dropWhile_append_of_pos hpre]
  rfl

/-- What is to be trimmed makes no difference behind a text. -/
theorem trimBy_append_right {post : Text} (hpost : ∀ c ∈ post, p c = true) :
    trimBy p (text ++ post) = trimBy p text := by
  have hrev : ∀ c ∈ post.reverse, p c = true := fun c hc => hpost c (List.mem_reverse.1 hc)
  rw [trimBy, trimBy, List.dropWhile_append]
  split
  · rename_i hempty
    rw [List.isEmpty_iff.1 hempty, List.dropWhile_eq_nil_iff.2 hpost]
  · rw [dropEndWhile, List.reverse_append, List.dropWhile_append_of_pos hrev]
    rfl

/-- Trimming the start first makes no difference. -/
theorem trimBy_dropWhile : trimBy p (text.dropWhile p) = trimBy p text := by
  rw [trimBy, List.dropWhile_idempotent]
  rfl

/-- Trimming reaches up to a text that begins and ends outside the class. -/
theorem Tight.trimBy_append {front : Text} (h : Tight p text) (hne : text ≠ []) :
    trimBy p (front ++ text) = front.dropWhile p ++ text := by
  rw [trimBy_of_last, List.dropWhile_append]
  · split
    · rename_i hempty
      rw [List.isEmpty_iff.1 hempty, List.nil_append, dropWhile_eq_self h.head]
    · rfl
  · intro c hc
    rw [List.getLast?_append, List.getLast?_eq_some_getLast hne] at hc
    exact h.last c ((List.getLast?_eq_some_getLast hne).trans hc)

/-- A tight text is what is left of it and what is to be trimmed on both sides. -/
theorem Tight.trimBy_between {before after : Text} (h : Tight p text)
    (hbefore : ∀ c ∈ before, p c = true) (hafter : ∀ c ∈ after, p c = true) :
    trimBy p (before ++ text ++ after) = text := by
  rw [trimBy_append_right hafter, trimBy_append_left hbefore, h.trimBy_eq]

/-- Trimming by a larger class takes nothing more away, if what is left does not begin or end in
it. -/
theorem trimBy_eq_of_tight {q : Char → Bool} (hpq : ∀ c, p c = true → q c = true)
    (h : Tight q (trimBy p text)) : trimBy q text = trimBy p text := by
  obtain ⟨pre, post, htext, hpre, hpost⟩ := exists_append_trimBy p text
  conv_lhs => rw [htext]
  rw [trimBy_append_right fun c hc => hpq c (hpost c hc),
    trimBy_append_left fun c hc => hpq c (hpre c hc), h.trimBy_eq]

/-- Trimming takes nothing away but characters of the class. -/
theorem mem_trimBy_of_mem {c : Char} (hc : c ∈ text) (hp : p c = false) : c ∈ trimBy p text := by
  have hdrop : ∀ {t : Text}, c ∈ t → c ∈ t.dropWhile p := by
    intro t hc
    rw [← List.takeWhile_append_dropWhile (p := p) (l := t), List.mem_append] at hc
    refine hc.resolve_left fun hmem => ?_
    rw [List.mem_takeWhile_imp hmem] at hp
    cases hp
  exact List.mem_reverse.2 (hdrop (List.mem_reverse.2 (hdrop hc)))

/-- Trimming adds no characters. -/
theorem mem_of_mem_trimBy {c : Char} (hc : c ∈ trimBy p text) : c ∈ text :=
  List.dropWhile_subset p
    (List.mem_reverse.1 (List.dropWhile_subset p (List.mem_reverse.1 hc)))

end

/-- A piece of a text does not hold the separator, and nothing that is not in the text. -/
theorem of_mem_splitOn {separator : Char} {text part : Text} (h : part ∈ text.splitOn separator) :
    separator ∉ part ∧ part ⊆ text := by
  induction text generalizing part with
  | nil =>
    rw [List.splitOn_nil, List.mem_singleton] at h
    subst h
    exact ⟨List.not_mem_nil, List.Subset.refl _⟩
  | cons c text ih =>
    rw [List.splitOn_cons_eq_if_modifyHead] at h
    split at h
    · rcases List.mem_cons.1 h with rfl | h
      · exact ⟨List.not_mem_nil, List.nil_subset _⟩
      · exact ⟨(ih h).1, List.subset_cons_of_subset _ (ih h).2⟩
    · rename_i hc
      obtain ⟨first, rest, hsplit⟩ :=
        List.exists_cons_of_ne_nil (List.splitOn_ne_nil separator text)
      rw [hsplit] at h ih
      rcases List.mem_cons.1 h with rfl | h
      · have hfirst := ih List.mem_cons_self
        refine ⟨fun hmem => ?_, List.cons_subset_cons _ hfirst.2⟩
        rcases List.mem_cons.1 hmem with rfl | hmem
        · exact hc BEq.rfl
        · exact hfirst.1 hmem
      · have hpart := ih (List.mem_cons_of_mem _ h)
        exact ⟨hpart.1, List.subset_cons_of_subset _ hpart.2⟩

/-- Two pieces around a separator are cut apart there. -/
theorem splitOn_pair {separator : Char} {a b : Text} (ha : separator ∉ a) (hb : separator ∉ b) :
    (a ++ separator :: b).splitOn separator = [a, b] := by
  rw [List.splitOn_append_cons_self_of_not_mem ha, List.splitOn_eq_singleton hb]

/-! ## Solid texts -/

/-- The text has no blanks and no commas. -/
def Solid (text : Text) : Prop := ∀ c ∈ text, isBlankChar c = false ∧ c ≠ ','

/-- The empty text is solid. -/
theorem solid_nil : Solid [] := by
  intro c hc
  cases hc

/-- Solid texts are solid together. -/
theorem Solid.append {a b : Text} (ha : Solid a) (hb : Solid b) : Solid (a ++ b) := by
  intro c hc
  exact (List.mem_append.1 hc).elim (ha c) (hb c)

/-- A solid text stays solid behind a character that is neither a blank nor a comma. -/
theorem Solid.cons {c : Char} {text : Text} (hc : isBlankChar c = false ∧ c ≠ ',')
    (h : Solid text) : Solid (c :: text) := by
  intro d hd
  rcases List.mem_cons.1 hd with rfl | hd
  · exact hc
  · exact h d hd

/-- There is nothing to trim in a solid text. -/
theorem Solid.trim_eq {text : Text} (h : Solid text) : trim text = text := by
  refine Tight.trimBy_eq ⟨fun c hc => ?_, fun c hc => ?_⟩
  · exact (h c (List.mem_of_head? hc)).1
  · exact (h c (List.mem_of_getLast? hc)).1

/-- A solid text is not cut at commas. -/
theorem Solid.comma_not_mem {text : Text} (h : Solid text) : ',' ∉ text := by
  intro hmem
  exact (h _ hmem).2 rfl

end Songsmith.Text
