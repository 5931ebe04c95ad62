import Songsmith.Pattern.Parser
import Songsmith.Proofs.Number.Integer

/-!
# Cutting tokens of a pattern

A token is written as a value, a legato mark, a length behind a slash and a velocity behind a colon
(`Token.Spells`), and it is cut into these parts again: the parts that `Token.ofText?` finds are
those whose token the text spells (`Token.ofText?_eq_some_iff`). Each part is cut off in front of
what follows it. A value is an integer or a single sign (`Token.Value.Spells`); digits belong to the
value as long as there are any, and so does a hyphen in front of digits, so what follows the value
must not begin with a digit. A length ends at the next slash or colon, and has to be all the text
before it.
-/

namespace Songsmith

/-! ## Marks -/

namespace Text

/-- The text holds neither of the marks before the length and the velocity of a token. -/
def Unmarked (text : Text) : Prop := ∀ c ∈ text, c ≠ '/' ∧ c ≠ ':'

/-- There are no marks in a text of a class that holds none. -/
theorem unmarked_of_forall {p : Char → Bool} {text : Text} (h : ∀ c ∈ text, p c = true)
    (hslash : p '/' = false) (hcolon : p ':' = false) : Unmarked text := by
  intro c hc
  constructor
  · rintro rfl
    rw [h _ hc] at hslash
    cases hslash
  · rintro rfl
    rw [h _ hc] at hcolon
    cases hcolon

/-- There are no marks in a blank text. -/
theorem unmarked_of_blank {text : Text} (h : ∀ c ∈ text, isBlankChar c = true) : Unmarked text :=
  unmarked_of_forall h (by decide) (by decide)

/-- There are no marks among digits. -/
theorem unmarked_of_digits {text : Text} (h : ∀ c ∈ text, isDecimalDigit c = true) :
    Unmarked text :=
  unmarked_of_forall h (by decide) (by decide)

/-- Two texts without marks have none together. -/
theorem Unmarked.append {a b : Text} (ha : Unmarked a) (hb : Unmarked b) : Unmarked (a ++ b) :=
  List.forall_mem_append.2 ⟨ha, hb⟩

/-- A text without marks is not cut in front of a length. -/
theorem Unmarked.slash_not_mem {text : Text} (h : Unmarked text) : '/' ∉ text := by
  intro hmem
  exact (h _ hmem).1 rfl

/-- A text without marks is not cut in front of a velocity. -/
theorem Unmarked.colon_not_mem {text : Text} (h : Unmarked text) : ':' ∉ text := by
  intro hmem
  exact (h _ hmem).2 rfl

end Text

namespace Token

/-! ## How tokens are written -/

/-- The decimal digits of an integer, at least one, behind a minus sign or not. -/
inductive IsInteger : Text → Prop
  | plain {digits : Text} : digits ≠ [] → (∀ c ∈ digits, Text.isDecimalDigit c = true) →
      IsInteger digits
  | negative {digits : Text} : digits ≠ [] → (∀ c ∈ digits, Text.isDecimalDigit c = true) →
      IsInteger ('-' :: digits)

/-- A value is written as its integer or as its sign. -/
inductive Value.Spells : Value → Text → Prop
  | number {text : Text} : IsInteger text → Spells (.number text) text
  | sign {c : Char} : isSign c = true → Spells (.sign c) [c]

/-- The legato mark of a token, if it has one. -/
def legatoMark (legato : Bool) : Text := if legato then ['~'] else []

/-- A part of a token behind its mark, if it is there. -/
def marked (mark : Char) : Option Text → Text
  | none => []
  | some part => mark :: part

/-- A token is written as its value, its legato mark, its length and its velocity. -/
inductive Spells : Token → Text → Prop
  | parts {value : Value} {legato : Bool} {length velocity : Option Text} {text : Text} :
      value.Spells text → (∀ part ∈ length, part ≠ [] ∧ Text.Unmarked part) →
      (∀ part ∈ velocity, IsInteger part) →
      Spells ⟨value, legato, length, velocity⟩
        (text ++ legatoMark legato ++ marked '/' length ++ marked ':' velocity)

/-- The digits of an integer are one. -/
theorem isInteger_digits (n : Int) : IsInteger (Integer.digits n) := by
  have hne : Nat.toDigits 10 n.natAbs ≠ [] := Nat.toDigits_ne_nil
  have hdigits : ∀ c ∈ Nat.toDigits 10 n.natAbs, Text.isDecimalDigit c = true := fun c hc =>
    Text.isDecimalDigit_of_isDigit (Integer.isDigit_of_mem_toDigits hc)
  unfold Integer.digits
  split
  · exact .negative hne hdigits
  · exact .plain hne hdigits

/-- A hyphen is no digit, so that the two forms of an integer are told apart by it. -/
theorem isIntegerText_iff {text : Text} : isIntegerText text = true ↔ IsInteger text := by
  have hall : ∀ digits : Text, (!digits.isEmpty && digits.all Text.isDecimalDigit) = true ↔
      digits ≠ [] ∧ ∀ c ∈ digits, Text.isDecimalDigit c = true := by
    intro digits
    rw [Bool.and_eq_true, Bool.not_eq_true', List.isEmpty_eq_false_iff, List.all_eq_true]
  unfold isIntegerText
  split
  · rename_i digits
    rw [hall]
    constructor
    · rintro ⟨hne, hdigits⟩
      exact .negative hne hdigits
    · intro h
      cases h with
      | negative hne hdigits => exact ⟨hne, hdigits⟩
      | plain _ hdigits => exact absurd (hdigits '-' List.mem_cons_self) (by decide)
  · rename_i text hminus
    rw [hall]
    constructor
    · rintro ⟨hne, hdigits⟩
      exact .plain hne hdigits
    · intro h
      cases h with
      | negative => exact absurd rfl (hminus _)
      | plain hne hdigits => exact ⟨hne, hdigits⟩

/-! ## Values -/

/-- A sign is no decimal digit. -/
theorem isDecimalDigit_of_isSign {c : Char} (h : isSign c = true) :
    Text.isDecimalDigit c = false := by
  simp only [isSign, Bool.and_eq_true, Bool.not_eq_true'] at h
  exact h.1.1.1.1.2

/-- Digits are spanned up to a text that does not begin with one. -/
theorem spanDigits_append {digits rest : Text}
    (hdigits : ∀ c ∈ digits, Text.isDecimalDigit c = true)
    (hrest : ∀ c, rest.head? = some c → Text.isDecimalDigit c = false) :
    spanDigits (digits ++ rest) = (digits, rest) := by
  rw [spanDigits, Text.takeWhile_append hdigits hrest, Text.dropWhile_append hdigits hrest]

/-- A text is the digits in front of it and the rest. -/
theorem spanDigits_inv (text : Text) : text = (spanDigits text).1 ++ (spanDigits text).2 :=
  List.takeWhile_append_dropWhile.symm

/-- What stands in front are decimal digits. -/
theorem isDecimalDigit_of_mem_spanDigits {text : Text} :
    ∀ c ∈ (spanDigits text).1, Text.isDecimalDigit c = true :=
  fun _ hc => List.mem_takeWhile_imp hc

/-- A written value is spanned up to a text that does not begin with a digit. -/
theorem Value.Spells.spanValue?_append {value : Value} {text rest : Text} (h : value.Spells text)
    (hrest : ∀ c, rest.head? = some c → Text.isDecimalDigit c = false) :
    spanValue? (text ++ rest) = some (value, rest) := by
  cases h with
  | number h =>
    cases h with
    | negative hne hdigits =>
      rw [List.cons_append, spanValue?, spanDigits_append hdigits hrest, if_pos ⟨rfl, hne⟩]
    | plain hne hdigits =>
      have hspan := spanDigits_append hdigits hrest
      obtain ⟨d, digits, rfl⟩ := List.exists_cons_of_ne_nil hne
      have hminus : ¬ (d = '-' ∧ (spanDigits (digits ++ rest)).1 ≠ []) := by
        rintro ⟨rfl, -⟩
        exact absurd (hdigits _ List.mem_cons_self) (by decide)
      rw [List.cons_append] at hspan
      rw [List.cons_append, spanValue?, if_neg hminus, hspan, if_pos (List.cons_ne_nil _ _)]
  | @sign c hsign =>
    have hnone : spanDigits ([] ++ rest) = ([], rest) := spanDigits_append nofun hrest
    have hspan : (spanDigits (c :: rest)).1 = [] := List.takeWhile_cons_of_neg (by
      rw [isDecimalDigit_of_isSign hsign]
      exact Bool.false_ne_true)
    rw [List.singleton_append, spanValue?, if_neg (fun h => h.2 (congrArg Prod.fst hnone)),
      if_neg (fun h => h hspan), if_pos hsign]

/-- A text from which a value is taken is the value and the rest. -/
theorem spanValue?_inv {text rest : Text} {value : Value}
    (h : spanValue? text = some (value, rest)) :
    ∃ front, value.Spells front ∧ text = front ++ rest := by
  unfold spanValue? at h
  split at h
  · cases h
  · rename_i c text
    split at h
    · rename_i hminus
      cases h
      refine ⟨_, .number (.negative hminus.2 isDecimalDigit_of_mem_spanDigits), ?_⟩
      rw [hminus.1, List.cons_append, ← spanDigits_inv]
    · split at h
      · rename_i hdigits
        cases h
        exact ⟨_, .number (.plain hdigits isDecimalDigit_of_mem_spanDigits), spanDigits_inv _⟩
      · split at h
        · rename_i hsign
          cases h
          exact ⟨[c], .sign hsign, rfl⟩
        · cases h

/-! ## Legato marks, lengths and velocities -/

/-- The legato mark is taken from the front of a text that has no further one. -/
theorem spanLegato_append {legato : Bool} {rest : Text}
    (hrest : ∀ c, rest.head? = some c → c ≠ '~') :
    spanLegato (legatoMark legato ++ rest) = (legato, rest) := by
  cases legato with
  | true => rfl
  | false =>
    cases rest with
    | nil => rfl
    | cons c rest => exact spanLegato.eq_2 _ fun _ h => hrest c rfl (List.cons.inj h).1

/-- A text is the legato mark in front of it and the rest. -/
theorem spanLegato_inv (text : Text) :
    text = legatoMark (spanLegato text).1 ++ (spanLegato text).2 := by
  unfold spanLegato
  split <;> rfl

/-- A length is spanned up to the velocity. -/
theorem spanLength?_append {length : Option Text} {rest : Text}
    (hlength : ∀ part ∈ length, part ≠ [] ∧ Text.Unmarked part)
    (hrest : ∀ c, rest.head? = some c → c = ':') :
    spanLength? (marked '/' length ++ rest) = some (length, rest) := by
  cases length with
  | none =>
    cases rest with
    | nil => rfl
    | cons c rest =>
      obtain rfl := hrest c rfl
      rfl
  | some part =>
    obtain ⟨hne, hpart⟩ := hlength part rfl
    have hinside : ∀ c ∈ part, (c != ':' && c != '/') = true := by
      intro c hc
      rw [Bool.and_eq_true, bne_iff_ne, bne_iff_ne]
      exact (hpart c hc).symm
    have hhead : ∀ c, rest.head? = some c → (c != ':' && c != '/') = false := by
      intro c hc
      rw [hrest c hc]
      rfl
    simp only [marked, List.cons_append, spanLength?, Text.takeWhile_append hinside hhead,
      Text.dropWhile_append hinside hhead, if_neg hne]

/-- A text from which a length is taken is the length and the rest. -/
theorem spanLength?_inv {text rest : Text} {length : Option Text}
    (h : spanLength? text = some (length, rest)) :
    text = marked '/' length ++ rest ∧ ∀ part ∈ length, part ≠ [] ∧ Text.Unmarked part := by
  unfold spanLength? at h
  split at h
  · rename_i text
    simp only at h
    split at h
    · cases h
    · rename_i hne
      cases h
      refine ⟨by rw [marked, List.cons_append, List.takeWhile_append_dropWhile], ?_⟩
      rintro part ⟨⟩
      exact ⟨hne, Text.unmarked_of_forall (fun _ hc => List.mem_takeWhile_imp hc) (by decide)
        (by decide)⟩
  · cases h
    exact ⟨rfl, nofun⟩

/-- The end of a token is a velocity exactly if it is an integer behind a colon, or nothing. -/
theorem velocityOf?_eq_some_iff {text : Text} {velocity : Option Text} :
    velocityOf? text = some velocity ↔
      text = marked ':' velocity ∧ ∀ part ∈ velocity, IsInteger part := by
  unfold velocityOf?
  split
  · constructor
    · rintro ⟨⟩
      exact ⟨rfl, nofun⟩
    · rintro ⟨htext, -⟩
      cases velocity with
      | none => rfl
      | some part => cases htext
  · rename_i part
    rw [Option.ite_none_right_eq_some, isIntegerText_iff]
    constructor
    · rintro ⟨hinteger, ⟨⟩⟩
      exact ⟨rfl, by rintro _ ⟨⟩; exact hinteger⟩
    · rintro ⟨htext, hinteger⟩
      cases velocity with
      | none => cases htext
      | some part =>
        cases htext
        exact ⟨hinteger _ rfl, rfl⟩
  · rename_i hnil hcolon
    constructor
    · rintro ⟨⟩
    · rintro ⟨rfl, -⟩
      cases velocity with
      | none => exact absurd rfl hnil
      | some part => exact absurd rfl (hcolon part)

/-! ## Tokens -/

/-- A part begins with its mark. -/
theorem head?_marked {mark c : Char} {part : Option Text} (h : (marked mark part).head? = some c) :
    c = mark := by
  cases part with
  | none => cases h
  | some part =>
    cases h
    rfl

/-- What follows a value or a legato mark begins with a mark. -/
theorem head?_marks {length velocity : Option Text} {c : Char}
    (h : (marked '/' length ++ marked ':' velocity).head? = some c) : c = '/' ∨ c = ':' := by
  rw [List.head?_append, Option.or_eq_some_iff] at h
  rcases h with h | ⟨-, h⟩
  · exact .inl (head?_marked h)
  · exact .inr (head?_marked h)

/-- The parts of a token are those that its text spells. -/
theorem ofText?_eq_some_iff {text : Text} {token : Token} :
    ofText? text = some token ↔ token.Spells text := by
  constructor
  · intro h
    unfold ofText? at h
    simp only [Option.bind_eq_bind, Option.bind_eq_some_iff] at h
    obtain ⟨⟨value, rest⟩, hvalue, ⟨length, rest'⟩, hlength, velocity, hvelocity, htoken⟩ := h
    cases htoken
    obtain ⟨front, hfront, rfl⟩ := spanValue?_inv hvalue
    obtain ⟨hrest, hpart⟩ := spanLength?_inv hlength
    obtain ⟨rfl, hinteger⟩ := velocityOf?_eq_some_iff.1 hvelocity
    have htext : front ++ rest = front ++ legatoMark (spanLegato rest).1 ++ marked '/' length ++
        marked ':' velocity := by
      conv_lhs => rw [spanLegato_inv rest, hrest]
      simp only [List.append_assoc]
    rw [htext]
    exact .parts hfront hpart hinteger
  · rintro @⟨value, legato, length, velocity, front, hfront, hpart, hinteger⟩
    have hmark : spanLegato (legatoMark legato ++ (marked '/' length ++ marked ':' velocity)) =
        (legato, marked '/' length ++ marked ':' velocity) :=
      spanLegato_append fun c hc => by rcases head?_marks hc with rfl | rfl <;> decide
    have hhead : ∀ c, (legatoMark legato ++ (marked '/' length ++ marked ':' velocity)).head? =
        some c → Text.isDecimalDigit c = false := by
      intro c hc
      cases legato with
      | true =>
        cases hc
        decide
      | false => rcases head?_marks hc with rfl | rfl <;> decide
    rw [List.append_assoc, List.append_assoc, ofText?, hfront.spanValue?_append hhead]
    simp only [Option.bind_eq_bind, Option.bind_some, hmark,
      spanLength?_append hpart fun _ hc => head?_marked hc,
      velocityOf?_eq_some_iff.2 ⟨rfl, hinteger⟩]

/-- A single sign that is read as a value may be one. -/
theorem isSign_of_ofText? {text : Text} {token : Token} (h : ofText? text = some token) (c : Char)
    (hc : token.value = .sign c) : isSign c = true := by
  obtain ⟨hvalue, -, -⟩ := ofText?_eq_some_iff.1 h
  cases hc
  cases hvalue with
  | sign hsign => exact hsign

end Token

end Songsmith
