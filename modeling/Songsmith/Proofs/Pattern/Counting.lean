import Songsmith.Proofs.Number.Margins
import Songsmith.Proofs.Pattern.RoundTrip
import Songsmith.Proofs.Tiling

/-!
# Counting the ticks of a pattern text

The ticks of a pattern text can be counted without reading anything but the lengths of its tokens,
which add up to the count (`Length.AddUp`, `Length.countTicks_eq_ok_iff`). Where the text is a
pattern, this gives the length of the pattern (`Pattern.countTicks_of_parse`): nothing that is read
is counted wrongly or not at all. Texts that are put together with commas last as long as all of
them (`Length.lasts_commaJoin`).

A token is cut in two ways. The reader cuts a trimmed token from the left, part by part; the counter
takes what stands between the first slash and the first colon of the token as it is, and trims it.
A token that is read is its value, its length behind a slash and its velocity behind a colon, with
no other slash and colon before the velocity (`Token.exists_text_of_ofText?`), so both find the same
length but for the blanks around it (`Length.ofToken_eq_read`), which do not matter
(`Length.read_trim`).
-/

namespace Songsmith

namespace Text

/-- A text is cut off at the first separator. -/
theorem upTo_append {separator : Char} {a b : Text} (h : separator ∉ a) :
    upTo separator (a ++ separator :: b) = a := by
  refine takeWhile_append (fun c hc => ?_) fun c hc => ?_
  · rw [bne_iff_ne]
    rintro rfl
    exact h hc
  · cases hc
    exact bne_self_eq_false _

/-- A text without a separator is not cut off. -/
theorem upTo_eq_self {separator : Char} {text : Text} (h : separator ∉ text) :
    upTo separator text = text := by
  refine List.takeWhile_eq_self_iff.2 fun c hc => ?_
  rw [bne_iff_ne]
  rintro rfl
  exact h hc

end Text

/-! ## The text of a token -/

namespace Token

/-- There are no marks in an integer. -/
theorem IsInteger.unmarked {text : Text} (h : IsInteger text) : Text.Unmarked text := by
  cases h with
  | plain _ hdigits => exact Text.unmarked_of_digits hdigits
  | negative _ hdigits =>
    exact List.forall_mem_cons.2 ⟨by decide, Text.unmarked_of_digits hdigits⟩

/-- The value of a token has neither slashes nor colons in it. -/
theorem Value.Spells.unmarked {value : Value} {text : Text} (h : value.Spells text) :
    Text.Unmarked text := by
  cases h with
  | number h => exact h.unmarked
  | sign hsign =>
    exact Text.unmarked_of_forall (p := isSign) (by simpa using hsign) (by decide) (by decide)

/-- The legato mark is none of those that a token is cut at. -/
theorem unmarked_legatoMark (legato : Bool) : Text.Unmarked (legatoMark legato) := by
  cases legato <;> simp [legatoMark, Text.Unmarked]

/-- A token is its value, its length and its velocity, with no slashes and colons but the marks of
the length and the velocity before the latter. -/
theorem exists_text_of_ofText? {text : Text} {token : Token} (h : ofText? text = some token) :
    ∃ value : Text, Text.Unmarked value ∧
      text = value ++ marked '/' token.length ++ marked ':' token.velocity ∧
      ∀ part ∈ token.length, Text.Unmarked part := by
  obtain @⟨_, legato, _, _, front, hfront, hpart, -⟩ := ofText?_eq_some_iff.1 h
  exact ⟨front ++ legatoMark legato, hfront.unmarked.append (unmarked_legatoMark legato), rfl,
    fun part hmem => (hpart part hmem).2⟩

/-- Before the first colon, nothing may follow the front but blanks behind the token. -/
theorem upTo_append_marked {front post : Text} (hfront : ':' ∉ front) (hpost : ':' ∉ post)
    (velocity : Option Text) : ∃ blanks : Text, blanks ⊆ post ∧
      Text.upTo ':' (front ++ marked ':' velocity ++ post) = front ++ blanks := by
  cases velocity with
  | none =>
    refine ⟨post, List.Subset.refl _, ?_⟩
    rw [marked, List.append_nil, Text.upTo_eq_self]
    rw [List.mem_append, not_or]
    exact ⟨hfront, hpost⟩
  | some velocity =>
    refine ⟨[], List.nil_subset _, ?_⟩
    rw [marked, List.append_assoc, List.cons_append, Text.upTo_append hfront, List.append_nil]

end Token

/-! ## The length of a token -/

namespace Length

variable {ticksPerBeat : Option Int}

/-- Blanks around a length do not matter. -/
theorem ticks?_trim {length : Option Text} {n : Int} (h : ticks? ticksPerBeat length = some n) :
    ticks? ticksPerBeat (length.map Text.trim) = some n := by
  cases length with
  | none => exact h
  | some text =>
    cases ticksPerBeat with
    | none =>
      have hread : Integer.read text = .ok n := by
        cases hread : Integer.read text with
        | error e => simp [ticks?, hread, Except.toOption] at h
        | ok m => simpa [ticks?, hread, Except.toOption] using h
      simp [ticks?, Integer.read_trim hread, Except.toOption]
    | some perBeat =>
      obtain ⟨beats, hbeats, hticks⟩ := Option.bind_eq_some_iff.1 h
      exact Option.bind_eq_some_iff.2 ⟨beats, RealText.readFinite?_trim hbeats, hticks⟩

/-- Blanks around a length make no difference. -/
theorem read_trim {length : Option Text} {token : Text} {n : { n : Nat // 0 < n }}
    (h : read ticksPerBeat length token = .ok n) :
    read ticksPerBeat (length.map Text.trim) token = .ok n := by
  unfold read at h ⊢
  cases hticks : ticks? ticksPerBeat length with
  | none =>
    rw [hticks] at h
    cases h
  | some m =>
    rw [hticks] at h
    rw [ticks?_trim hticks]
    exact h

/-- The counter finds the length that the reader cuts from the trimmed token. -/
theorem ofToken_eq_read {token : Text} {parts : Token}
    (h : Token.ofText? (Text.trim token) = some parts) :
    ofToken ticksPerBeat token =
      read ticksPerBeat (parts.length.map Text.trim) (Text.trim token) := by
  obtain ⟨value, hvalue, htext, hpart⟩ := Token.exists_text_of_ofText? h
  obtain ⟨pre, post, htoken, hpre, hpost⟩ := Text.exists_append_trimBy Text.isBlankChar token
  have hfront : Text.Unmarked (pre ++ value) := (Text.unmarked_of_blank hpre).append hvalue
  have hcolon : ':' ∉ pre ++ value ++ Token.marked '/' parts.length := by
    rw [List.mem_append, not_or]
    refine ⟨hfront.colon_not_mem, ?_⟩
    cases hlength : parts.length with
    | none => simp [Token.marked]
    | some part => simpa [Token.marked] using (hpart part hlength).colon_not_mem
  have htoken' : token =
      pre ++ value ++ Token.marked '/' parts.length ++ Token.marked ':' parts.velocity ++ post := by
    rw [Text.trim] at htext
    rw [htext] at htoken
    rw [htoken]
    simp only [List.append_assoc]
  obtain ⟨blanks, hsubset, hupTo⟩ := Token.upTo_append_marked hcolon
    (Text.unmarked_of_blank hpost).colon_not_mem parts.velocity
  have hblanks : ∀ c ∈ blanks, Text.isBlankChar c = true := fun c hc => hpost c (hsubset hc)
  rw [ofToken, htoken', hupTo, ← htoken']
  cases hlength : parts.length with
  | none =>
    rw [Token.marked, List.append_nil, List.splitOn_eq_singleton]
    · rfl
    · exact (hfront.append (Text.unmarked_of_blank hblanks)).slash_not_mem
  | some part =>
    have hpart' : '/' ∉ part ++ blanks :=
      ((hpart part hlength).append (Text.unmarked_of_blank hblanks)).slash_not_mem
    rw [Token.marked, List.append_assoc, List.cons_append,
      Text.splitOn_pair hfront.slash_not_mem hpart']
    simp only [Text.trim, Text.trimBy_append_right hblanks, Option.map_some]

end Length

namespace Entry

/-- An entry has the length that it is read with. -/
theorem ticks_of_sounded {ticks : { n : Nat // 0 < n }} {wildcards token : Text} {velocity : Int}
    {legato : Bool} {value : Token.Value} {e : Entry}
    (h : sounded ticks wildcards velocity legato token value = .ok e) :
    ticks = ⟨e.ticks, e.ticks_pos⟩ := by
  unfold sounded at h
  split at h
  · obtain ⟨pitch, -, rfl⟩ := Outcome.map_eq_ok_iff.1 h
    rfl
  · split at h
    · obtain ⟨pitch, -, rfl⟩ := Outcome.map_eq_ok_iff.1 h
      rfl
    · split at h
      · cases h
        rfl
      · cases h

/-- The length of an entry is the one that its token states, whatever the token sounds. -/
theorem read_of_ofToken {ticksPerBeat : Option Int} {wildcards token : Text} {maxVelocity : Int}
    {parts : Token} {e : Entry}
    (h : ofToken ticksPerBeat wildcards maxVelocity token parts = .ok e) :
    Length.read ticksPerBeat parts.length token = .ok ⟨e.ticks, e.ticks_pos⟩ := by
  obtain ⟨ticks, hticks, h⟩ := Outcome.bind_eq_ok_iff.1 h
  suffices ticks = ⟨e.ticks, e.ticks_pos⟩ by rw [hticks, this]
  split at h
  · cases h
    rfl
  · obtain ⟨velocity, -, h⟩ := Outcome.bind_eq_ok_iff.1 h
    split at h
    · cases h
      rfl
    · exact ticks_of_sounded h

/-- The length that is counted for a token that is read is the length of its entry. -/
theorem ofToken_of_parse {ticksPerBeat : Option Int} {wildcards : Text} {maxVelocity : Int}
    {text : Text} {e : Entry} (h : parse ticksPerBeat wildcards maxVelocity text = .ok e) :
    Length.ofToken ticksPerBeat text = .ok ⟨e.ticks, e.ticks_pos⟩ := by
  unfold parse at h
  split at h
  · cases h
  · rename_i parts hparts
    rw [Length.ofToken_eq_read hparts, Length.read_trim (read_of_ofToken h)]

end Entry

/-! ## The length of a text -/

namespace Length

variable {ticksPerBeat : Option Int}

/-- The tokens have lengths, and these add up to the given number of ticks. -/
inductive AddUp (ticksPerBeat : Option Int) : List Text → Nat → Prop
  | nil : AddUp ticksPerBeat [] 0
  | cons {token : Text} {tokens : List Text} {m : { n : Nat // 0 < n }} {n : Nat} :
      ofToken ticksPerBeat token = .ok m → AddUp ticksPerBeat tokens n →
      AddUp ticksPerBeat (token :: tokens) (m.val + n)

/-- The tokens of two lists add up to the sum of what each list adds up to. -/
theorem AddUp.append {tokens tokens' : List Text} {m n : Nat} (h : AddUp ticksPerBeat tokens m)
    (h' : AddUp ticksPerBeat tokens' n) : AddUp ticksPerBeat (tokens ++ tokens') (m + n) := by
  induction h with
  | nil =>
    rw [Nat.zero_add]
    exact h'
  | cons htoken _ ih =>
    rw [Nat.add_assoc]
    exact .cons htoken ih

/-- Tokens add up to at least a tick. -/
theorem AddUp.pos {tokens : List Text} {n : Nat} (h : AddUp ticksPerBeat tokens n)
    (hne : tokens ≠ []) : 0 < n := by
  cases h with
  | nil => exact absurd rfl hne
  | @cons _ _ m => exact Nat.add_pos_left m.property _

/-- The lengths of tokens are added to a sum one after the other. -/
theorem foldlM_addToken {tokens : List Text} {sum n : { n : Nat // 0 < n }} :
    tokens.foldlM (addToken ticksPerBeat) sum = .ok n ↔
      ∃ k, AddUp ticksPerBeat tokens k ∧ n.val = sum.val + k := by
  induction tokens generalizing sum with
  | nil =>
    rw [List.foldlM_nil]
    constructor
    · intro h
      cases h
      exact ⟨0, .nil, rfl⟩
    · rintro ⟨k, hk, hn⟩
      cases hk
      exact congrArg Except.ok (Subtype.ext hn.symm)
  | cons token tokens ih =>
    rw [List.foldlM_cons, Outcome.bind_eq_ok_iff]
    constructor
    · rintro ⟨sum', hsum', h⟩
      obtain ⟨m, hm, rfl⟩ := Outcome.map_eq_ok_iff.1 hsum'
      obtain ⟨k, hk, hn⟩ := ih.1 h
      exact ⟨m.val + k, .cons hm hk, by rw [hn, Nat.add_assoc]⟩
    · rintro ⟨k, hk, hn⟩
      cases hk with
      | cons hm hk =>
        refine ⟨_, Outcome.map_eq_ok_iff.2 ⟨_, hm, rfl⟩, ih.2 ⟨_, hk, ?_⟩⟩
        rw [hn, Nat.add_assoc]

/-- A text is counted if it is not blank and each of its tokens is, and its length is the total of
theirs. -/
theorem countTicks_eq_ok_iff {text : Text} {n : { n : Nat // 0 < n }} :
    countTicks text ticksPerBeat = .ok n ↔
      Text.isBlank text = false ∧ AddUp ticksPerBeat (text.splitOn ',') n.val := by
  obtain ⟨token, tokens, hsplit⟩ := List.exists_cons_of_ne_nil (List.splitOn_ne_nil ',' text)
  unfold countTicks
  cases hblank : Text.isBlank text with
  | true => simp
  | false =>
    rw [if_neg Bool.false_ne_true, hsplit]
    simp only [Outcome.bind_eq_ok_iff, foldlM_addToken, true_and]
    constructor
    · rintro ⟨m, hm, k, hk, hn⟩
      rw [hn]
      exact .cons hm hk
    · generalize hsum : n.val = sum
      rintro (_ | ⟨hm, hk⟩)
      exact ⟨_, hm, _, hk, rfl⟩

/-- The text is counted, and has the given number of ticks. -/
def Lasts (ticksPerBeat : Option Int) (text : Text) (n : Nat) : Prop :=
  (countTicks text ticksPerBeat).map Subtype.val = .ok n

/-- A text lasts as long as its tokens together, unless it is blank. -/
theorem lasts_iff {text : Text} {n : Nat} :
    Lasts ticksPerBeat text n ↔
      Text.isBlank text = false ∧ AddUp ticksPerBeat (text.splitOn ',') n := by
  rw [Lasts, Outcome.map_eq_ok_iff]
  constructor
  · rintro ⟨m, hm, rfl⟩
    exact countTicks_eq_ok_iff.1 hm
  · rintro ⟨hblank, htokens⟩
    have hpos := htokens.pos (List.splitOn_ne_nil _ _)
    exact ⟨⟨n, hpos⟩, countTicks_eq_ok_iff.2 ⟨hblank, htokens⟩, rfl⟩

/-- Of two texts with a comma between them, the lengths are added. -/
theorem Lasts.append {a b : Text} {m n : Nat} (ha : Lasts ticksPerBeat a m)
    (hb : Lasts ticksPerBeat b n) : Lasts ticksPerBeat (a ++ ',' :: b) (m + n) := by
  obtain ⟨hblank, htokens⟩ := lasts_iff.1 ha
  obtain ⟨-, htokens'⟩ := lasts_iff.1 hb
  refine lasts_iff.2 ⟨?_, ?_⟩
  · rw [Text.isBlank, List.all_append, ← Text.isBlank, hblank, Bool.false_and]
  · rw [List.splitOn_append_cons_self]
    exact htokens.append htokens'

/-- Texts with commas between them last as long as all of them together. -/
theorem lasts_commaJoin {texts : List Text} {lengths : List Nat} (hne : texts ≠ [])
    (h : List.Forall₂ (Lasts ticksPerBeat) texts lengths) :
    Lasts ticksPerBeat (Text.commaJoin texts) (Cycle.total id lengths) := by
  induction h with
  | nil => exact absurd rfl hne
  | @cons text n texts lengths hn h ih =>
    cases texts with
    | nil =>
      cases h
      rw [Text.commaJoin, List.intercalate_singleton]
      exact hn
    | cons text' texts =>
      rw [Text.commaJoin, List.intercalate_cons_cons, List.append_assoc, Cycle.total_cons]
      exact hn.append (ih (List.cons_ne_nil _ _))

/-- Texts of one length last a multiple of it. -/
theorem lasts_commaJoin_of_forall {texts : List Text} {n : Nat} (hne : texts ≠ [])
    (h : ∀ text ∈ texts, Lasts ticksPerBeat text n) :
    Lasts ticksPerBeat (Text.commaJoin texts) (texts.length * n) := by
  have htotal : Cycle.total id (texts.map fun _ => n) = texts.length * n := by
    rw [List.map_const', Cycle.total_replicate]
    rfl
  rw [← htotal]
  exact lasts_commaJoin hne (List.forall₂_map_right_iff.2 (List.forall₂_same.2 h))

end Length

namespace Pattern

variable {ticksPerBeat : Option Int} {wildcards : Text} {maxVelocity : Int}

/-- A pattern lasts at least a tick. -/
theorem ticks_pos (p : Pattern) : 0 < p.ticks := Cycle.total_pos Entry.ticks_pos p.nonempty

/-- Tokens add up to the length of the entries that are read from them. -/
theorem addUp_of_forall₂ {tokens : List Text} {entries : List Entry}
    (h : List.Forall₂ (fun token e =>
      Entry.parse ticksPerBeat wildcards maxVelocity token = .ok e) tokens entries) :
    Length.AddUp ticksPerBeat tokens (Cycle.total Entry.ticks entries) := by
  induction h with
  | nil => exact .nil
  | cons htoken _ ih => exact .cons (Entry.ofToken_of_parse htoken) ih

/-- The lengths that are counted for the tokens of a text that is read make up the length of the
pattern. -/
theorem addUp_of_parse {text : Text} {p : Pattern}
    (h : Pattern.parse text ticksPerBeat wildcards maxVelocity = .ok p) :
    Text.isBlank text = false ∧ Length.AddUp ticksPerBeat (text.splitOn ',') p.ticks := by
  unfold Pattern.parse at h
  split at h
  · cases h
  · rename_i hblank
    obtain ⟨entries, hentries, h⟩ := Outcome.bind_eq_ok_iff.1 h
    rw [ticks, entries_of_ofEntries h]
    exact ⟨Bool.eq_false_iff.2 hblank, addUp_of_forall₂ (Outcome.mapM_eq_ok_iff.1 hentries)⟩

/-- The length that is counted for a text without reading it is that of the pattern it is read
as. -/
theorem countTicks_of_parse {text : Text} {p : Pattern}
    (h : Pattern.parse text ticksPerBeat wildcards maxVelocity = .ok p) :
    Length.countTicks text ticksPerBeat = .ok ⟨p.ticks, p.ticks_pos⟩ := by
  obtain ⟨hblank, htokens⟩ := addUp_of_parse h
  exact Length.countTicks_eq_ok_iff.2 ⟨hblank, htokens⟩

/-- A text in beats, with blanks inside and around the tokens, an exponent, a missing length, and a
length behind a pause that states a velocity. -/
theorem countTicks_of_parse_blanks :
    ∃ p, Pattern.parse " 0~/ 1.5 ,#/25e-1:90,\t-7 , -/+0_1.0 :3".toList (some 4) ['#'] 127 =
        .ok p ∧
      Length.countTicks " 0~/ 1.5 ,#/25e-1:90,\t-7 , -/+0_1.0 :3".toList (some 4) =
        .ok ⟨24, by decide⟩ := by
  have hread : Pattern.parse " 0~/ 1.5 ,#/25e-1:90,\t-7 , -/+0_1.0 :3".toList (some 4) ['#'] 127 =
      .ok ⟨[⟨6, some 0, none, 127, true, by decide⟩, ⟨10, none, some ['#'], 90, false, by decide⟩,
        ⟨4, some (-7), none, 127, false, by decide⟩, .pause 4 (by decide)], by simp⟩ := by
    decide +kernel
  exact ⟨_, hread, countTicks_of_parse hread⟩

end Pattern

end Songsmith
