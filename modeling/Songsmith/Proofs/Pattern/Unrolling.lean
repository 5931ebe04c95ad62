import Songsmith.Proofs.Number.Limits
import Songsmith.Proofs.Pattern.Expansion

/-!
# Unrolled shorthand

Shorthand writes a tree of tokens, groups and sequences (`Shorthand.Tree.Writes`), and its expansion
is the tokens of the tree with every repeated part unrolled (`Shorthand.expand_of_writes`). There is
no grammar behind the expansion: a text is cut at the commas outside parentheses, and each piece is
tried for a star with digits and for parentheses around it. So the proof follows the writing. What
is written in parentheses passes the cutting in one piece, whatever is in it (`Shorthand.Passes`),
the text of a tree is cut into the texts of its items (`Shorthand.Cuts`), and the parts of an item
are found behind and between its blanks (`Shorthand.itemParts_eq`).

Groups may be nested, counts may be long or great and lists may be large, up to what the machine
has room for (`Shorthand.Tree.Fits`). Beyond that the expansion may fail, but it never comes to
another text (`Shorthand.Limited`).
-/

namespace Songsmith.Shorthand

/-! ## Trees and how they are written -/

/-- A token as it stands in shorthand: it has no blanks around it, no commas and no parentheses, and
it does not end in a star and digits. -/
structure Leaf where
  text : Text
  tight : Text.Tight Text.isBlankChar text
  inside : ∀ c ∈ text, c ≠ '(' ∧ c ≠ ')' ∧ c ≠ ','
  unrepeated : ∀ body digits : Text, digits ≠ [] →
    (∀ c ∈ digits, Text.isDecimalDigit c = true) → text ≠ body ++ '*' :: digits

/-- The numeral of a positive count. -/
structure Count where
  digits : Text
  ne_nil : digits ≠ []
  decimal : ∀ c ∈ digits, Text.isDecimalDigit c = true
  pos : 0 < Numeral.value (Numeral.plain digits)

/-- How often a part stands where it is written with the given count, or with none. -/
def times : Option Count → Nat
  | none => 1
  | some count => Numeral.value (Numeral.plain count.digits)

/-- A tree of tokens: a token or a group, repeated or not, or one tree behind another. -/
inductive Tree where
  | leaf (token : Leaf) (count : Option Count)
  | group (inner : Tree) (count : Option Count)
  | sequence (first rest : Tree)

/-- The text is nothing but blanks. -/
def Blanks (text : Text) : Prop := ∀ c ∈ text, Text.isBlankChar c = true

/-- A count is written behind a star. -/
def star (between : Text) : Option Count → Text
  | none => []
  | some count => between ++ '*' :: count.digits

namespace Tree

/-- The tokens of the tree, in order, with every repeated part as often as it says. -/
def tokens : Tree → List Text
  | leaf token count => List.replicate (times count) token.text
  | group inner count => (List.replicate (times count) inner.tokens).flatten
  | sequence first rest => first.tokens ++ rest.tokens

/-- The tree is written with commas between its parts, parentheses around its groups and counts
behind stars. There may be blanks around each token and group, also before the star. -/
inductive Writes : Tree → Text → Prop
  | leaf {token : Leaf} {count : Option Count} {before between after : Text} :
      Blanks before → Blanks between → Blanks after →
      Writes (leaf token count) (before ++ token.text ++ star between count ++ after)
  | group {inner : Tree} {count : Option Count} {text before between after : Text} :
      Writes inner text → Blanks before → Blanks between → Blanks after →
      Writes (group inner count) (before ++ ('(' :: text ++ [')']) ++ star between count ++ after)
  | sequence {first rest : Tree} {text text' : Text} : Writes first text → Writes rest text' →
      Writes (sequence first rest) (text ++ ',' :: text')

/-- How many groups stand inside each other, at most. -/
def depth : Tree → Nat
  | leaf .. => 0
  | group inner _ => inner.depth + 1
  | sequence first rest => max first.depth rest.depth

/-- A list of the given size can be repeated: the numeral of the count can be read, the count is an
index, and there is room for the repeated list. -/
structure Repeatable [Machine] (count : Option Count) (size : Nat) : Prop where
  digits_le : ∀ c ∈ count, c.digits.length ≤ Integer.digitLimit
  times_le : times count ≤ Cycle.countLimit
  items_le : times count * size ≤ Machine.items

/-- Every part can be repeated as often as it says. -/
def CountsFit [Machine] : Tree → Prop
  | leaf _ count => Repeatable count 1
  | group inner count => inner.CountsFit ∧ Repeatable count inner.tokens.length
  | sequence first rest => first.CountsFit ∧ rest.CountsFit

/-- There is room for the groups and for all that is repeated. -/
structure Fits [Machine] (tree : Tree) : Prop where
  depth_le : tree.depth ≤ Machine.groups
  counts : tree.CountsFit

end Tree

/-! ## Limits -/

/-- There is this result if the limits are kept, and no other one if they are not. -/
structure Limited {α : Type} (kept : Prop) (result : α) (x : Except Error α) : Prop where
  eq_ok : kept → x = .ok result
  eq_of_ok : ∀ r, x = .ok r → r = result

namespace Limited

section
variable {α β : Type} {P Q : Prop} {a : α} {b : β} {x : Except Error α}

/-- A value that is there keeps every limit. -/
theorem ok (a : α) : Limited P a (.ok a) := ⟨fun _ => rfl, fun _ h => (Except.ok.inj h).symm⟩

/-- An error is no other result. -/
theorem error {e : Error} (h : ¬ P) : Limited P a (.error e) := ⟨fun hP => absurd hP h, nofun⟩

/-- Narrower limits are kept less often. -/
theorem mono (h : Limited P a x) (hPQ : Q → P) : Limited Q a x :=
  ⟨fun hQ => h.eq_ok (hPQ hQ), h.eq_of_ok⟩

/-- The limits of a sequence are those of its steps. -/
theorem bind {f : α → Except Error β} (h : Limited P a x) (hf : Limited Q b (f a)) :
    Limited (P ∧ Q) b (x >>= f) := by
  refine ⟨fun ⟨hP, hQ⟩ => by rw [h.eq_ok hP]; exact hf.eq_ok hQ, fun r hr => ?_⟩
  obtain ⟨a', ha', hr⟩ := Outcome.bind_eq_ok_iff.1 hr
  rw [h.eq_of_ok a' ha'] at hr
  exact hf.eq_of_ok r hr

/-- A function of the result has the same limits. -/
theorem map {f : α → β} (h : Limited P a x) : Limited P (f a) (x.map f) := by
  refine ⟨fun hP => by rw [h.eq_ok hP]; rfl, fun r hr => ?_⟩
  obtain ⟨a', ha', rfl⟩ := Outcome.map_eq_ok_iff.1 hr
  rw [h.eq_of_ok a' ha']

end

/-- A list is repeated if there is room for it. -/
theorem repeated [Machine] {α : Type} (count : Nat) (items : List α) :
    Limited (count ≤ Cycle.countLimit ∧ count * items.length ≤ Machine.items)
      (List.replicate count items).flatten (Cycle.repeated count items) := by
  unfold Cycle.repeated
  split
  · exact error (by omega)
  · split
    · exact error (by omega)
    · exact ok _

end Limited

/-- Reads the numeral of a count. -/
def readTimes : Option Count → Except Error Nat
  | none => .ok 1
  | some count => Integer.readNat count.digits

/-- The numeral of a count is read if it has few enough digits. -/
theorem limited_readTimes (count : Option Count) :
    Limited (∀ c ∈ count, c.digits.length ≤ Integer.digitLimit) (times count)
      (readTimes count) := by
  cases count with
  | none => exact .ok 1
  | some count =>
    simp only [Option.mem_some_iff, forall_eq']
    rw [readTimes, Integer.readNat, Integer.read_decimal count.ne_nil count.decimal]
    split
    · exact .ok _
    · rename_i hlimit
      exact .error hlimit

/-- Every part stands somewhere at least once. -/
theorem times_pos (count : Option Count) : 0 < times count := by
  cases count with
  | none => exact Nat.one_pos
  | some count => exact count.pos

/-- A count that is read is positive. -/
theorem pos_of_readTimes {count : Option Count} {n : Nat} (h : readTimes count = .ok n) :
    0 < n := by
  rw [(limited_readTimes count).eq_of_ok n h]
  exact times_pos count

/-! ## Cutting at commas -/

/-- At every depth from `least` on, the text is passed without a cut and leaves the depth as it
was. -/
def Passes (least : Nat) (text : Text) : Prop :=
  ∀ (whole : Text) (depth : Nat) (current rest : Text), least ≤ depth →
    splitFrom whole depth current (text ++ rest) =
      splitFrom whole depth (text.reverse ++ current) rest

/-- Texts that are passed one by one are passed together. -/
theorem Passes.append {least : Nat} {a b : Text} (ha : Passes least a) (hb : Passes least b) :
    Passes least (a ++ b) := by
  intro whole depth current rest h
  rw [List.append_assoc, ha whole depth current _ h, hb whole depth _ rest h, List.reverse_append,
    List.append_assoc]

/-- A text is passed deeper inside as well. -/
theorem Passes.mono {least least' : Nat} {text : Text} (h : Passes least text)
    (hle : least ≤ least') : Passes least' text :=
  fun whole depth current rest hdepth => h whole depth current rest (hle.trans hdepth)

/-- A text without parentheses and commas is passed everywhere. -/
theorem passes_of_inside {text : Text} (h : ∀ c ∈ text, c ≠ '(' ∧ c ≠ ')' ∧ c ≠ ',') :
    Passes 0 text := by
  intro whole depth current rest _
  induction text generalizing current with
  | nil => rfl
  | cons c text ih =>
    obtain ⟨hopen, hclose, hcomma⟩ := h c List.mem_cons_self
    have hstep : splitFrom whole depth current (c :: (text ++ rest)) =
        splitFrom whole depth (c :: current) (text ++ rest) := by
      cases depth <;> simp [splitFrom, hclose, hcomma]
    rw [List.cons_append, hstep, ih fun d hd => h d (List.mem_cons_of_mem _ hd),
      List.reverse_cons, List.append_assoc, List.singleton_append]

/-- A comma is passed inside parentheses. -/
theorem passes_comma : Passes 1 [','] := by
  intro whole depth current rest h
  obtain ⟨depth, rfl⟩ := Nat.exists_eq_add_of_le' h
  simp [splitFrom]

/-- Parentheses keep what is between them together. -/
theorem Passes.group {text : Text} (h : Passes 1 text) : Passes 0 ('(' :: text ++ [')']) := by
  intro whole depth current rest _
  rw [List.cons_append, List.cons_append, splitFrom, List.append_assoc,
    h whole (depth + 1) _ _ (Nat.succ_pos _), List.singleton_append, splitFrom]
  simp

/-- Blanks are passed everywhere. -/
theorem passes_blanks {text : Text} (h : Blanks text) : Passes 0 text :=
  passes_of_inside fun c hc =>
    ⟨by rintro rfl; exact absurd (h _ hc) (by decide),
      by rintro rfl; exact absurd (h _ hc) (by decide),
      by rintro rfl; exact absurd (h _ hc) (by decide)⟩

/-- A count is passed everywhere. -/
theorem passes_star {between : Text} {count : Option Count} (h : Blanks between) :
    Passes 0 (star between count) := by
  cases count with
  | none => exact passes_of_inside nofun
  | some count =>
    refine (passes_blanks h).append (passes_of_inside ?_)
    rw [List.forall_mem_cons]
    refine ⟨by decide, fun c hc => ⟨?_, ?_, ?_⟩⟩ <;>
      exact fun hmark => absurd (count.decimal c hc) (by rw [hmark]; decide)

/-- An item is passed as its body is: neither blanks nor a count are cut. -/
theorem Passes.item {before body between after : Text} {count : Option Count}
    (hbody : Passes 0 body) (hbefore : Blanks before) (hbetween : Blanks between)
    (hafter : Blanks after) : Passes 0 (before ++ body ++ star between count ++ after) :=
  (((passes_blanks hbefore).append hbody).append (passes_star hbetween)).append
    (passes_blanks hafter)

/-- Inside parentheses a written tree is passed in one piece. -/
theorem Tree.Writes.passes {tree : Tree} {text : Text} (h : tree.Writes text) : Passes 1 text := by
  induction h with
  | @leaf token _ _ _ _ hbefore hbetween hafter =>
    exact ((passes_of_inside token.inside).item hbefore hbetween hafter).mono (Nat.zero_le _)
  | group _ hbefore hbetween hafter ih =>
    exact (ih.group.item hbefore hbetween hafter).mono (Nat.zero_le _)
  | sequence _ _ ihFirst ihRest =>
    have hboth := (ihFirst.append passes_comma).append ihRest
    rwa [List.append_assoc, List.singleton_append] at hboth

/-- A text is cut into these pieces, at its end and in front of a further comma. -/
structure Cuts (text : Text) (pieces : List Text) : Prop where
  last : ∀ whole, splitFrom whole 0 [] text = .ok pieces
  next : ∀ whole rest, splitFrom whole 0 [] (text ++ ',' :: rest) =
    (splitFrom whole 0 [] rest).map (pieces ++ ·)

/-- A text that is passed everywhere is one piece. -/
theorem Passes.cuts {text : Text} (h : Passes 0 text) : Cuts text [text] where
  last := by
    intro whole
    have hlast := h whole 0 [] [] (Nat.le_refl _)
    rw [List.append_nil] at hlast
    rw [hlast, splitFrom, List.append_nil, List.reverse_reverse]
  next := by
    intro whole rest
    rw [h whole 0 [] _ (Nat.le_refl _), splitFrom, List.append_nil, List.reverse_reverse]
    rfl

/-- Texts with a comma between them are cut into the pieces of both. -/
theorem Cuts.append {text text' : Text} {pieces pieces' : List Text} (h : Cuts text pieces)
    (h' : Cuts text' pieces') : Cuts (text ++ ',' :: text') (pieces ++ pieces') where
  last := by
    intro whole
    rw [h.next, h'.last]
    rfl
  next := by
    intro whole rest
    rw [List.append_assoc, List.cons_append, h.next, h'.next]
    cases splitFrom whole 0 [] rest with
    | error e => rfl
    | ok _ => exact congrArg Except.ok (List.append_assoc _ _ _).symm

/-! ## Parts of an item -/

/-- The count of a repetition is found behind its last star. -/
theorem repetition?_star {front digits : Text} (hne : digits ≠ [])
    (hdigits : ∀ c ∈ digits, Text.isDecimalDigit c = true) :
    repetition? (front ++ '*' :: digits) = some (front, digits) := by
  have hreverse : (front ++ '*' :: digits).reverse = digits.reverse ++ '*' :: front.reverse := by
    simp
  have hrev : ∀ c ∈ digits.reverse, Text.isDecimalDigit c = true :=
    fun c hc => hdigits c (List.mem_reverse.1 hc)
  have hstar : ∀ c, ('*' :: front.reverse).head? = some c → Text.isDecimalDigit c = false := by
    rintro _ ⟨⟩
    decide
  obtain ⟨d, digits, rfl⟩ := List.exists_cons_of_ne_nil hne
  simp only [repetition?, hreverse, Text.takeWhile_append hrev hstar,
    Text.dropWhile_append hrev hstar, List.reverse_reverse]

/-- A text that does not end in a star and digits is no repetition. -/
theorem repetition?_eq_none {item : Text} (h : ∀ body digits : Text, digits ≠ [] →
    (∀ c ∈ digits, Text.isDecimalDigit c = true) → item ≠ body ++ '*' :: digits) :
    repetition? item = none := by
  cases hrepetition : repetition? item with
  | none => rfl
  | some parts =>
    obtain ⟨hitem, hne, hdigits⟩ := repetition?_inv hrepetition
    exact absurd hitem (h _ _ hne hdigits)

/-- The parts of an item are found behind and between its blanks. -/
theorem itemParts_eq {whole before body between after : Text} {count : Option Count}
    (hbody : Text.Tight Text.isBlankChar body)
    (hunrepeated : repetition? body = none) (hbefore : Blanks before) (hbetween : Blanks between)
    (hafter : Blanks after) :
    itemParts whole (before ++ body ++ star between count ++ after) =
      (readTimes count).map (body, ·) := by
  cases count with
  | none =>
    rw [star, List.append_nil, itemParts, Text.trim, hbody.trimBy_between hbefore hafter,
      hunrepeated]
    rfl
  | some count =>
    have htight : Text.Tight Text.isBlankChar ('*' :: count.digits) := by
      refine ⟨fun c hc => by cases hc; decide, fun c hc => ?_⟩
      rcases List.mem_cons.1 (List.mem_of_getLast? hc) with rfl | hc
      · decide
      · exact Text.isBlankChar_of_isDecimalDigit (count.decimal c hc)
    have hitem : Text.trim (before ++ body ++ star between (some count) ++ after) =
        (before ++ body ++ between).dropWhile Text.isBlankChar ++ '*' :: count.digits := by
      rw [Text.trim, Text.trimBy_append_right hafter, star, ← List.append_assoc,
        htight.trimBy_append (List.cons_ne_nil _ _)]
    have hfront : Text.trim ((before ++ body ++ between).dropWhile Text.isBlankChar) = body := by
      rw [Text.trim, Text.trimBy_dropWhile, hbody.trimBy_between hbefore hbetween]
    rw [itemParts, hitem, repetition?_star count.ne_nil count.decimal]
    simp only [hfront]
    cases hread : readTimes (some count) with
    | error e =>
      rw [readTimes] at hread
      rw [hread]
      rfl
    | ok n =>
      have hpos : ¬ n < 1 := Nat.not_lt.2 (pos_of_readTimes hread)
      rw [readTimes] at hread
      rw [hread]
      exact if_neg hpos

/-! ## Tokens of an item -/

/-- The tokens of an item whose groups are nested less than `depth` deep; `whole` is the text that
errors show. -/
def itemTokens [Machine] (depth : Nat) (whole item : Text) : Except Error (List Text) := do
  let (body, count) ← itemParts whole item
  match group? body with
  | some inner => tokensWithin depth inner >>= Cycle.repeated count
  | none =>
    if body.contains '(' || body.contains ')' then
      .error (.malformed (.misplacedParenthesis body))
    else Cycle.repeated count [body]

/-- The tokens of a text are those of the items that it is cut into. -/
theorem tokensWithin_succ [Machine] (depth : Nat) (text : Text) :
    tokensWithin (depth + 1) text =
      splitTopLevel text >>= fun items =>
        (items.mapM (itemTokens depth text)).map List.flatten :=
  rfl

/-- A group is found between its parentheses. -/
theorem group?_group (text : Text) : group? ('(' :: text ++ [')']) = some text := by
  rw [List.cons_append, group?, List.getLast?_concat, if_pos rfl, List.dropLast_concat]

/-- A text without parentheses is no group. -/
theorem group?_inside {text : Text} (h : ∀ c ∈ text, c ≠ '(' ∧ c ≠ ')' ∧ c ≠ ',') :
    group? text = none := by
  unfold group?
  split
  · exact absurd rfl (h _ List.mem_cons_self).1
  · rfl

section
variable [Machine] {depth : Nat} {whole before between after : Text} {count : Option Count}

/-- A token stands for as many of it as its count says. -/
theorem itemTokens_leaf (token : Leaf) (hbefore : Blanks before) (hbetween : Blanks between)
    (hafter : Blanks after) :
    itemTokens depth whole (before ++ token.text ++ star between count ++ after) =
      readTimes count >>= (Cycle.repeated · [token.text]) := by
  have hcontains (c : Char) (hc : c ∉ token.text) : token.text.contains c = false := by
    rwa [Bool.eq_false_iff, Ne, List.contains_iff_mem]
  have hopen := hcontains '(' fun hmem => (token.inside _ hmem).1 rfl
  have hclose := hcontains ')' fun hmem => (token.inside _ hmem).2.1 rfl
  rw [itemTokens, itemParts_eq token.tight (repetition?_eq_none token.unrepeated) hbefore hbetween
    hafter]
  cases readTimes count with
  | error e => rfl
  | ok n =>
    simp only [Except.map, bind, Except.bind, group?_inside token.inside, hopen, hclose,
      Bool.or_false, Bool.false_eq_true, if_false]

/-- A group stands for as many copies of what is in it as its count says. -/
theorem itemTokens_group (text : Text) (hbefore : Blanks before) (hbetween : Blanks between)
    (hafter : Blanks after) :
    itemTokens depth whole (before ++ ('(' :: text ++ [')']) ++ star between count ++ after) =
      readTimes count >>= fun n => tokensWithin depth text >>= Cycle.repeated n := by
  have htight : Text.Tight Text.isBlankChar ('(' :: text ++ [')']) := by
    refine ⟨fun c hc => by cases hc; decide, fun c hc => ?_⟩
    rw [List.getLast?_concat] at hc
    cases hc
    decide
  have hunrepeated : repetition? ('(' :: text ++ [')']) = none := by
    refine repetition?_eq_none fun body digits hne hdigits htext => ?_
    obtain ⟨digits, d, rfl⟩ := List.eq_nil_or_concat digits |>.resolve_left hne
    have hlast := congrArg List.getLast? htext
    rw [List.getLast?_concat, List.concat_eq_append, ← List.cons_append, ← List.append_assoc,
      List.getLast?_concat] at hlast
    cases hlast
    exact absurd (hdigits ')' (by simp)) (by decide)
  rw [itemTokens, itemParts_eq htight hunrepeated hbefore hbetween hafter]
  cases readTimes count with
  | error e => rfl
  | ok n => simp only [Except.map, bind, Except.bind, group?_group]

end

/-! ## Tokens of a tree -/

section
variable {α β : Type} {f : α → Except Error (List β)}

/-- A single item gives what it gives. -/
theorem flatten_mapM_singleton (x : α) : ([x].mapM f).map List.flatten = f x := by
  rw [List.mapM_cons, List.mapM_nil]
  cases f x with
  | error e => rfl
  | ok ys => exact congrArg Except.ok (List.append_nil ys)

/-- Items of two lists give what those of the first list give, and then the others. -/
theorem flatten_mapM_append (xs xs' : List α) :
    ((xs ++ xs').mapM f).map List.flatten =
      (xs.mapM f).map List.flatten >>= fun ys => ((xs'.mapM f).map List.flatten).map (ys ++ ·) := by
  rw [List.mapM_append]
  cases xs.mapM f with
  | error e => rfl
  | ok yss =>
    cases xs'.mapM f with
    | error e => rfl
    | ok yss' => exact congrArg Except.ok List.flatten_append

end

section
variable [Machine]

/-- A text stands for the tokens of its items, if there is one level more than they need. -/
theorem limited_tokensWithin {tree : Tree} {text : Text} {items : List Text}
    (hcuts : Cuts text items) (hitems : ∀ depth whole,
      Limited (tree.depth ≤ depth ∧ tree.CountsFit) tree.tokens
        ((items.mapM (itemTokens depth whole)).map List.flatten)) (depth : Nat) :
    Limited (tree.depth < depth ∧ tree.CountsFit) tree.tokens (tokensWithin depth text) := by
  cases depth with
  | zero => exact .error fun h => absurd h.1 (Nat.not_lt_zero _)
  | succ depth =>
    rw [tokensWithin_succ, splitTopLevel, hcuts.last]
    exact (hitems depth text).mono fun h => ⟨Nat.le_of_lt_succ h.1, h.2⟩

/-- The text of a tree is cut into items, and these give the tokens of the tree. -/
theorem Tree.Writes.exists_items {tree : Tree} {text : Text} (h : tree.Writes text) :
    ∃ items, Cuts text items ∧ ∀ depth whole,
      Limited (tree.depth ≤ depth ∧ tree.CountsFit) tree.tokens
        ((items.mapM (itemTokens depth whole)).map List.flatten) := by
  induction h with
  | @leaf token count before between after hbefore hbetween hafter =>
    refine ⟨_, ((passes_of_inside token.inside).item hbefore hbetween hafter).cuts,
      fun depth whole => ?_⟩
    rw [flatten_mapM_singleton, itemTokens_leaf token hbefore hbetween hafter, Tree.tokens,
      ← List.flatten_replicate_singleton]
    refine ((limited_readTimes count).bind (.repeated (times count) [token.text])).mono ?_
    rintro ⟨-, hdigits, htimes, hitems⟩
    exact ⟨hdigits, htimes, hitems⟩
  | @group inner count text before between after hinner hbefore hbetween hafter ih =>
    obtain ⟨items, hcuts, hitems⟩ := ih
    refine ⟨_, (hinner.passes.group.item hbefore hbetween hafter).cuts, fun depth whole => ?_⟩
    rw [flatten_mapM_singleton, itemTokens_group text hbefore hbetween hafter, Tree.tokens]
    refine ((limited_readTimes count).bind
      ((limited_tokensWithin hcuts hitems depth).bind (.repeated _ _))).mono ?_
    rintro ⟨hdepth, hcounts, hdigits, htimes, hsize⟩
    exact ⟨hdigits, ⟨hdepth, hcounts⟩, htimes, hsize⟩
  | @sequence first rest text text' _ _ ihFirst ihRest =>
    obtain ⟨items, hcuts, hitems⟩ := ihFirst
    obtain ⟨items', hcuts', hitems'⟩ := ihRest
    refine ⟨items ++ items', hcuts.append hcuts', fun depth whole => ?_⟩
    rw [flatten_mapM_append, Tree.tokens]
    refine ((hitems depth whole).bind (hitems' depth whole).map).mono ?_
    rw [Tree.depth, Nat.max_le]
    rintro ⟨⟨hdepth, hdepth'⟩, hcounts, hcounts'⟩
    exact ⟨⟨hdepth, hcounts⟩, hdepth', hcounts'⟩

end

/-! ## Groups inside groups -/

/-- A token of a single character. -/
def Leaf.single (c : Char) (hblank : Text.isBlankChar c = false)
    (hinside : c ≠ '(' ∧ c ≠ ')' ∧ c ≠ ',') : Leaf where
  text := [c]
  tight := ⟨by rintro _ ⟨⟩; exact hblank, by rintro _ ⟨⟩; exact hblank⟩
  inside := List.forall_mem_singleton.2 hinside
  unrepeated := by
    rintro body digits hne - htext
    have hlength := congrArg List.length htext
    have hpos := List.length_pos_iff.2 hne
    simp only [List.length_append, List.length_cons, List.length_nil] at hlength
    omega

/-- A token in groups, each inside the next one. -/
def Tree.nested (token : Leaf) : Nat → Tree
  | 0 => .leaf token none
  | n + 1 => .group (nested token n) none

/-- The text of a token in groups. -/
def nestedText (token : Text) : Nat → Text
  | 0 => token
  | n + 1 => '(' :: nestedText token n ++ [')']

/-- Parentheses inside each other are how groups inside each other are written. -/
theorem writes_nested (token : Leaf) (n : Nat) :
    (Tree.nested token n).Writes (nestedText token.text n) := by
  induction n with
  | zero =>
    have h : (Tree.leaf token none).Writes ([] ++ token.text ++ star [] none ++ []) :=
      .leaf nofun nofun nofun
    rwa [star, List.nil_append, List.append_nil, List.append_nil] at h
  | succ n ih =>
    have h : (Tree.nested token (n + 1)).Writes
        ([] ++ ('(' :: nestedText token.text n ++ [')']) ++ star [] none ++ []) :=
      .group ih nofun nofun nofun
    rwa [star, List.nil_append, List.append_nil, List.append_nil] at h

/-- Expansion stops where the groups go deeper than it does. -/
theorem tokensWithin_nested [Machine] (token : Leaf) {depth n : Nat} (h : depth ≤ n) :
    tokensWithin depth (nestedText token.text n) = .error (.exhausted .nesting) := by
  induction depth generalizing n with
  | zero => rfl
  | succ depth ih =>
    obtain ⟨n, rfl⟩ := Nat.exists_eq_add_of_le' h
    have hcuts := (writes_nested token (n + depth)).passes.group.cuts
    have hitem (whole : Text) : itemTokens depth whole
        ([] ++ ('(' :: nestedText token.text (n + depth) ++ [')']) ++ star [] none ++ []) = _ :=
      itemTokens_group _ nofun nofun nofun
    simp only [star, List.nil_append, List.append_nil] at hitem
    rw [← Nat.add_assoc, nestedText, tokensWithin_succ, splitTopLevel, hcuts.last]
    refine (flatten_mapM_singleton _).trans ((hitem _).trans ?_)
    rw [ih (Nat.le_add_left depth n)]
    rfl

/-! ## Expanded texts -/

/-- A text that writes a tree expands to the tokens of the tree, if there is room for them, and to
no other text if there is not. -/
theorem expand_of_writes [Machine] {tree : Tree} {text : Text} (h : tree.Writes text) :
    (tree.Fits → expand text = .ok (Text.commaJoin tree.tokens)) ∧
      ∀ result, expand text = .ok result → result = Text.commaJoin tree.tokens := by
  obtain ⟨items, hcuts, hitems⟩ := h.exists_items
  have hlimited : Limited tree.Fits (Text.commaJoin tree.tokens) (expand text) :=
    (limited_tokensWithin hcuts hitems (Machine.groups + 1)).map.mono
      fun h => ⟨Nat.lt_succ_of_le h.depth_le, h.counts⟩
  exact ⟨hlimited.eq_ok, hlimited.eq_of_ok⟩

/-- A text with groups, counts and blanks. -/
theorem expand_of_writes_blanks : let _ := Machine.small; ∃ tree : Tree,
    tree.Writes ['(', '0', ' ', ',', '1', ' ', '*', '2', ')', '*', '0', '3', ',', ' ', '-'] ∧
      tree.Fits ∧
      expand ['(', '0', ' ', ',', '1', ' ', '*', '2', ')', '*', '0', '3', ',', ' ', '-'] =
        .ok "0,1,1,0,1,1,0,1,1,-".toList := by
  intro machine
  have hblank : Blanks [' '] := by
    rintro c hc
    cases List.mem_singleton.1 hc
    decide
  have hgroup : (Tree.group (.sequence (.leaf (.single '0' (by decide) (by decide)) none)
      (.leaf (.single '1' (by decide) (by decide))
        (some ⟨['2'], by decide, List.all_eq_true.1 (by decide), by decide⟩)))
      (some ⟨['0', '3'], by decide, List.all_eq_true.1 (by decide), by decide⟩)).Writes
        ['(', '0', ' ', ',', '1', ' ', '*', '2', ')', '*', '0', '3'] :=
    @Tree.Writes.group _ _ ['0', ' ', ',', '1', ' ', '*', '2'] [] [] []
      (@Tree.Writes.sequence _ _ ['0', ' '] _
        (@Tree.Writes.leaf _ _ [] [] [' '] nofun nofun hblank)
        (@Tree.Writes.leaf _ _ [] [' '] [] nofun hblank nofun))
      nofun nofun nofun
  have hpause : (Tree.leaf (.single '-' (by decide) (by decide)) none).Writes [' ', '-'] :=
    @Tree.Writes.leaf _ _ [' '] [] [] hblank nofun nofun
  have hwrites := Tree.Writes.sequence hgroup hpause
  suffices hfits : Tree.Fits _ from ⟨_, hwrites, hfits, (expand_of_writes hwrites).1 hfits⟩
  exact ⟨by decide, ⟨⟨⟨nofun, by decide, by decide⟩, ⟨by decide, by decide, by decide⟩⟩,
    ⟨by decide, by decide, by decide⟩⟩, ⟨nofun, by decide, by decide⟩⟩

/-! ## Counts with zeros in front -/

/-- The count one, with zeros in front. -/
def Count.paddedOne (zeros : Nat) : Count :=
  have hdigit : ∀ c ∈ List.replicate zeros '0' ++ ['1'], c.isDigit = true := by
    intro c hc
    rcases List.mem_append.1 hc with hc | hc
    · rw [List.eq_of_mem_replicate hc]
      decide
    · rw [List.mem_singleton.1 hc]
      decide
  { digits := List.replicate zeros '0' ++ ['1']
    ne_nil := by simp
    decimal := fun c hc => Text.isDecimalDigit_of_isDigit (hdigit c hc)
    pos := by
      rw [Numeral.plain_eq fun c hc => .inl (hdigit c hc), Numeral.value, List.foldl_append]
      have hone : '1'.toNat - '0'.toNat = 1 := rfl
      simp only [List.foldl_cons, List.foldl_nil, hone]
      exact Nat.succ_pos _ }

/-- The one is a digit as well. -/
@[simp]
theorem Count.length_paddedOne (zeros : Nat) : (paddedOne zeros).digits.length = zeros + 1 := by
  simp [paddedOne]

/-- A count of too many digits cannot be read, so that its token is not expanded. -/
theorem tokens_star_of_long [Machine] (token : Leaf) (count : Count)
    (hlong : Integer.digitLimit < count.digits.length) :
    Shorthand.tokens (token.text ++ '*' :: count.digits) =
      .error (.invalid (.integerTextLength count.digits.length)) := by
  have hitem : token.text ++ '*' :: count.digits =
      [] ++ token.text ++ star [] (some count) ++ [] := (List.append_nil _).symm
  have hblanks : Blanks [] := List.forall_mem_nil _
  have hcuts : Cuts ([] ++ token.text ++ star [] (some count) ++ []) _ :=
    ((passes_of_inside token.inside).item hblanks hblanks hblanks).cuts
  rw [hitem, Shorthand.tokens, tokensWithin_succ, splitTopLevel, hcuts.last]
  refine (flatten_mapM_singleton _).trans ?_
  rw [itemTokens_leaf token hblanks hblanks hblanks, readTimes, Integer.readNat,
    Integer.read_decimal count.ne_nil count.decimal, if_neg (Nat.not_le.2 hlong)]
  rfl

/-- Two trees whose texts are not expanded: one of more groups inside each other than the stack has
room for, and one with a count that is one, but has so many zeros in front that no machine reads
it. -/
theorem expand_unfit :
    let zero : Leaf := .single '0' (by decide) (by decide)
    let count := Count.paddedOne Integer.digitLimit
    (Tree.nested zero 1500).Writes (nestedText zero.text 1500) ∧
      @expand ⟨989, 1, by decide⟩ (nestedText zero.text 1500) = .error (.exhausted .nesting) ∧
      (Tree.leaf zero (some count)).Writes (zero.text ++ '*' :: count.digits) ∧
      ∀ [Machine], expand (zero.text ++ '*' :: count.digits) =
        .error (.invalid (.integerTextLength count.digits.length)) := by
  intro zero count
  have hlong : Integer.digitLimit < count.digits.length := by
    rw [Count.length_paddedOne]
    exact Nat.lt_succ_self _
  refine ⟨writes_nested zero 1500, ?_, ?_, ?_⟩
  · exact congrArg (Except.map Text.commaJoin)
      (@tokensWithin_nested ⟨989, 1, by decide⟩ zero _ _ (show 990 ≤ 1500 by decide))
  · have h : (Tree.leaf zero (some count)).Writes
        ([] ++ zero.text ++ star [] (some count) ++ []) := .leaf nofun nofun nofun
    rwa [star, List.nil_append, List.nil_append, List.append_nil] at h
  · intro machine
    rw [expand, tokens_star_of_long zero count hlong]
    rfl

end Songsmith.Shorthand
