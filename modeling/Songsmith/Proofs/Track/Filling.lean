import Songsmith.Proofs.Pattern.Failures
import Songsmith.Proofs.Random.Picks
import Songsmith.Proofs.Track.Parts
import Mathlib.Algebra.BigOperators.Ring.Multiset
import Mathlib.Algebra.Ring.Nat

/-!
# When filling a part gives up

A part is begun again and again until its fragments fill it. Every attempt picks fragments up to one
that fills the part, goes past its end, or has no length (`Layout.Ends`), and since no fragment
lasts less than a tick, it picks at most as many as the part has ticks (`Layout.Ends.length_le`).
After an attempt that goes past the end another one is begun, up to a hundred (`Layout.Fills`).
`Layout.fillWithin_gives_up_iff` puts this together: filling fails for lack of fragments exactly if
a hundred attempts go past the end (`Layout.AllPast`) and the length, which the error names, can be
written.

Both relations speak of what is picked and not of the search. That the search agrees with them is
shown once for an attempt (`Layout.attempt_of_ends`) and once for all attempts
(`Layout.fillWithin_of_fills`), so that a source that counts is no case of its own.
-/

namespace Songsmith

namespace Length

variable {ticksPerBeat : Option Int}

/-- No text lasts less than a tick. -/
theorem Lasts.pos {text : Text} {n : Nat} (h : Lasts ticksPerBeat text n) : 0 < n := by
  obtain ⟨m, -, rfl⟩ := Outcome.map_eq_ok_iff.1 h
  exact m.property

/-- A text lasts one number of ticks. -/
theorem Lasts.unique {text : Text} {m n : Nat} (h : Lasts ticksPerBeat text m)
    (h' : Lasts ticksPerBeat text n) : m = n :=
  Except.ok.inj (h.symm.trans h')

/-- A text that lasts some ticks can be counted. -/
theorem Lasts.countTicks_ne_error {text : Text} {n : Nat} (h : Lasts ticksPerBeat text n)
    (e : Error) : countTicks text ticksPerBeat ≠ .error e := by
  intro hcount
  rw [Lasts, hcount] at h
  cases h

/-- A token without a length is malformed. -/
theorem isMalformed_ofToken (ticksPerBeat : Option Int) (token : Text) :
    Outcome.FailsWith Entry.IsMalformed (ofToken ticksPerBeat token) := by
  have hread (length : Option Text) :
      Outcome.FailsWith Entry.IsMalformed (read ticksPerBeat length (Text.trim token)) := by
    intro e he
    cases Entry.fails_length ticksPerBeat length (Text.trim token) e he with
    | expected h => exact h
    | invalid h => exact h.elim
  unfold ofToken
  split
  · exact hread none
  · exact hread _
  · exact .error ⟨_, rfl⟩

/-- So is one among tokens that are added up. -/
theorem isMalformed_foldlM (ticksPerBeat : Option Int) (tokens : List Text)
    (sum : { n : Nat // 0 < n }) :
    Outcome.FailsWith Entry.IsMalformed (tokens.foldlM (addToken ticksPerBeat) sum) := by
  induction tokens generalizing sum with
  | nil => exact .ok _
  | cons token tokens ih =>
    rw [List.foldlM_cons]
    exact .bind (.map (isMalformed_ofToken ticksPerBeat token)) fun sum _ => ih sum

/-- A text without a length is malformed. -/
theorem isMalformed_countTicks (text : Text) (ticksPerBeat : Option Int) :
    Outcome.FailsWith Entry.IsMalformed (countTicks text ticksPerBeat) := by
  unfold countTicks
  split
  · exact .error ⟨_, rfl⟩
  · split
    · exact .error ⟨_, rfl⟩
    · rename_i token tokens _
      exact .bind (isMalformed_ofToken ticksPerBeat token) fun sum _ =>
        isMalformed_foldlM ticksPerBeat tokens sum

/-- Lengths with a common divisor only add up to its multiples. -/
theorem sum_ne_of_dvd {texts : List Text} {d ticks : Nat}
    (hdvd : ∀ text ∈ texts, ∀ n, Lasts ticksPerBeat text n → d ∣ n) (hticks : ¬ d ∣ ticks)
    (lengths : Multiset Nat) (hlengths : ∀ n ∈ lengths, ∃ text ∈ texts, Lasts ticksPerBeat text n) :
    lengths.sum ≠ ticks := by
  rintro rfl
  refine hticks (Multiset.dvd_sum fun n hn => ?_)
  obtain ⟨text, hmem, hlasts⟩ := hlengths n hn
  exact hdvd text hmem n hlasts

/-- A text is counted or malformed. -/
theorem exists_lasts_or_malformed (text : Text) (ticksPerBeat : Option Int) :
    (∃ n, Lasts ticksPerBeat text n) ∨
      ∃ cause, countTicks text ticksPerBeat = .error (.malformed cause) := by
  cases hcount : countTicks text ticksPerBeat with
  | ok n => exact .inl ⟨n, by rw [Lasts, hcount]; rfl⟩
  | error e =>
    obtain ⟨cause, rfl⟩ := isMalformed_countTicks text ticksPerBeat e hcount
    exact .inr ⟨cause, rfl⟩

end Length

namespace Layout

/-! ## Attempts -/

/-- How an attempt at a part ends. -/
inductive Ending where
  | full
  | past
  | malformed (cause : Malformed)

/-- What becomes of an attempt whose fragments make up the given text. -/
def Ending.result (text : Text) : Ending → Except Error (Option Text)
  | full => .ok (some text)
  | past => .ok none
  | malformed cause => .error (.malformed cause)

/-- An attempt that has so many ticks to fill picks these fragments, and ends with the last one. -/
inductive Ends (ticksPerBeat : Option Int) : (ticks : Nat) → List Text → Ending → Prop
  | full {ticks : Nat} {fragment : Text} : Length.Lasts ticksPerBeat fragment ticks →
      Ends ticksPerBeat ticks [fragment] .full
  | past {ticks n : Nat} {fragment : Text} : Length.Lasts ticksPerBeat fragment n → ticks < n →
      Ends ticksPerBeat ticks [fragment] .past
  | malformed {ticks : Nat} {fragment : Text} {cause : Malformed} :
      Length.countTicks fragment ticksPerBeat = .error (.malformed cause) →
      Ends ticksPerBeat ticks [fragment] (.malformed cause)
  | more {ticks n : Nat} {fragment : Text} {fragments : List Text} {ending : Ending} :
      Length.Lasts ticksPerBeat fragment n → 0 < ticks →
      Ends ticksPerBeat ticks fragments ending →
      Ends ticksPerBeat (n + ticks) (fragment :: fragments) ending

/-- All fragments have lengths, which go past the end with the last one and fall short of it
without. -/
def Overshoots (ticksPerBeat : Option Int) (ticks : Nat) (fragments : List Text) : Prop :=
  ∃ lengths, List.Forall₂ (Length.Lasts ticksPerBeat) fragments lengths ∧
    lengths.dropLast.sum < ticks ∧ ticks < lengths.sum

section
variable {ticksPerBeat : Option Int} {ticks : Nat} {fragments : List Text} {ending : Ending}

/-- No fragment lasts less than a tick, so that there are no more of them than ticks to fill. -/
theorem Ends.length_le (h : Ends ticksPerBeat ticks fragments ending) (positive : 0 < ticks) :
    fragments.length ≤ ticks := by
  induction h with
  | full | past | malformed => exact positive
  | more hlasts hticks _ ih =>
    have := hlasts.pos
    have := ih hticks
    rw [List.length_cons]
    omega

/-- What a way to end says about the fragments: their lengths add up to the ticks, or go past the
end, or one of them has no length. -/
def Ending.Describes (ticksPerBeat : Option Int) (ticks : Nat) (fragments : List Text) :
    Ending → Prop
  | full => ∃ lengths, List.Forall₂ (Length.Lasts ticksPerBeat) fragments lengths ∧
      lengths.sum = ticks
  | past => Overshoots ticksPerBeat ticks fragments
  | malformed cause => ∃ text ∈ fragments,
      Length.countTicks text ticksPerBeat = .error (.malformed cause)

/-- The fragments of an attempt are as its end says. -/
theorem Ends.describes (h : Ends ticksPerBeat ticks fragments ending) (positive : 0 < ticks) :
    ending.Describes ticksPerBeat ticks fragments := by
  induction h with
  | full hlasts => exact ⟨[_], .cons hlasts .nil, List.sum_singleton⟩
  | past hlasts hlt => exact ⟨[_], .cons hlasts .nil, positive, by rwa [List.sum_singleton]⟩
  | malformed hcount => exact ⟨_, List.mem_singleton_self _, hcount⟩
  | @more ticks n _ _ ending hlasts hticks _ ih =>
    cases ending with
    | full =>
      obtain ⟨lengths, hlengths, hsum⟩ := ih hticks
      exact ⟨n :: lengths, .cons hlasts hlengths, by rw [List.sum_cons, hsum]⟩
    | past =>
      obtain ⟨lengths, hlengths, hshort, hlong⟩ := ih hticks
      have hne : lengths ≠ [] := by
        rintro rfl
        cases hlong
      refine ⟨n :: lengths, .cons hlasts hlengths, ?_, ?_⟩
      · rw [List.dropLast_cons_of_ne_nil hne, List.sum_cons]
        omega
      · rw [List.sum_cons]
        omega
    | malformed =>
      obtain ⟨text, hmem, hcount⟩ := ih hticks
      exact ⟨text, List.mem_cons_of_mem _ hmem, hcount⟩

/-- An attempt picks a fragment. -/
theorem Ends.ne_nil (h : Ends ticksPerBeat ticks fragments ending) : fragments ≠ [] := by
  cases h <;> exact List.cons_ne_nil _ _

/-- An attempt that goes past the end ends in no other way. -/
theorem Ends.eq_past (h : Ends ticksPerBeat ticks fragments ending)
    (hover : Overshoots ticksPerBeat ticks fragments) : ending = .past := by
  obtain ⟨lengths, hlengths, hshort, hlong⟩ := hover
  induction h generalizing lengths with
  | past => rfl
  | full hlasts =>
    obtain ⟨m, _, hm, ⟨⟩, rfl⟩ := List.forall₂_cons_left_iff.1 hlengths
    rw [hm.unique hlasts, List.sum_singleton] at hlong
    omega
  | malformed hcount =>
    obtain ⟨m, _, hm, -, -⟩ := List.forall₂_cons_left_iff.1 hlengths
    exact absurd hcount (hm.countTicks_ne_error _)
  | more hlasts _ hends ih =>
    obtain ⟨m, rest, hm, hrest, rfl⟩ := List.forall₂_cons_left_iff.1 hlengths
    have hne : rest ≠ [] := by
      rintro rfl
      exact hends.ne_nil (List.forall₂_nil_right_iff.1 hrest)
    rw [hm.unique hlasts] at hshort hlong
    rw [List.dropLast_cons_of_ne_nil hne, List.sum_cons] at hshort
    rw [List.sum_cons] at hlong
    exact ih rest hrest (by omega) (by omega)

end

section
variable {σ : Type} [Source σ] {ticksPerBeat : Option Int} {g : FragmentGroup}

/-- Picking a candidate picks its fragment. -/
theorem pick_candidates {source stop : σ} {fragment : Text}
    (h : Source.pick source g.fragments g.nonempty = (fragment, stop)) :
    Source.pick source (candidates ticksPerBeat g) (candidates_ne_nil ticksPerBeat g) =
      (⟨fragment, Length.countTicks fragment ticksPerBeat⟩, stop) := by
  have hmap := Source.pick_map
    (fun text => (⟨text, Length.countTicks text ticksPerBeat⟩ : Candidate))
    source g.fragments g.nonempty (candidates_ne_nil ticksPerBeat g)
  rw [h] at hmap
  exact hmap

/-- An attempt whose picks end in some way has the result of that. -/
theorem attempt_of_ends {ticks : Nat} {fragments drawn : List Text} {ending : Ending}
    (h : Ends ticksPerBeat ticks fragments ending) {source stop : σ}
    (hpicks : Source.Picks g.fragments g.nonempty source fragments stop) :
    attempt (candidates ticksPerBeat g) (candidates_ne_nil ticksPerBeat g) ticks drawn source =
      (ending.result (Text.commaJoin (drawn.reverse ++ fragments)), stop) := by
  induction h generalizing drawn source with
  | full hlasts =>
    obtain ⟨m, hcount, rfl⟩ := Outcome.map_eq_ok_iff.1 hlasts
    obtain _ | ⟨hpick, ⟨⟩⟩ := hpicks
    rw [attempt, pick_candidates hpick]
    simp [hcount, Ending.result]
  | past hlasts hlt =>
    obtain ⟨m, hcount, rfl⟩ := Outcome.map_eq_ok_iff.1 hlasts
    obtain _ | ⟨hpick, ⟨⟩⟩ := hpicks
    rw [attempt, pick_candidates hpick]
    simp only [hcount]
    rw [if_neg (Nat.ne_of_gt hlt), dif_neg (Nat.lt_asymm hlt)]
    rfl
  | malformed hcount =>
    obtain _ | ⟨hpick, ⟨⟩⟩ := hpicks
    rw [attempt, pick_candidates hpick]
    simp only [hcount]
    rfl
  | @more ticks n fragment fragments ending hlasts hticks _ ih =>
    obtain ⟨m, hcount, rfl⟩ := Outcome.map_eq_ok_iff.1 hlasts
    obtain _ | ⟨hpick, hrest⟩ := hpicks
    rw [attempt, pick_candidates hpick]
    simp only [hcount]
    rw [if_neg (by omega), dif_pos (by omega), Nat.add_sub_cancel_left, ih hrest,
      List.reverse_cons, List.append_assoc, List.singleton_append]

/-- What is picked ends an attempt. -/
theorem exists_ends (ticksPerBeat : Option Int) (g : FragmentGroup) {ticks : Nat}
    (positive : 0 < ticks) (source : σ) :
    ∃ fragments ending stop, Source.Picks g.fragments g.nonempty source fragments stop ∧
      Ends ticksPerBeat ticks fragments ending := by
  induction ticks using Nat.strongRecOn generalizing source with
  | ind ticks ih =>
    obtain ⟨fragment, middle, hpick⟩ : ∃ fragment middle,
        Source.pick source g.fragments g.nonempty = (fragment, middle) := ⟨_, _, rfl⟩
    obtain ⟨n, hlasts⟩ | ⟨cause, hcount⟩ := Length.exists_lasts_or_malformed fragment ticksPerBeat
    · rcases Nat.lt_trichotomy n ticks with hlt | rfl | hlt
      · obtain ⟨rest, rfl⟩ := Nat.exists_eq_add_of_le (Nat.le_of_lt hlt)
        have hrest : 0 < rest := Nat.pos_of_lt_add_right hlt
        have := hlasts.pos
        obtain ⟨fragments, ending, stop, hpicks, hends⟩ := ih rest (by omega) hrest middle
        exact ⟨_, _, _, .cons hpick hpicks, .more hlasts hrest hends⟩
      · exact ⟨_, _, _, .cons hpick .nil, .full hlasts⟩
      · exact ⟨_, _, _, .cons hpick .nil, .past hlasts hlt⟩
    · exact ⟨_, _, _, .cons hpick .nil, .malformed hcount⟩

end

/-! ## Beginning again -/

/-- The attempts that fill a part within so many tries, and what they come to. -/
inductive Fills (rule : PartRule) (group : Char) :
    (tries : Nat) → (attempts : List (List Text)) → Except Error Text → Prop
  | none : Fills rule group 0 [] (.error (unfilled rule group))
  | full {tries : Nat} {fragments : List Text} :
      Ends rule.ticksPerBeat rule.ticks fragments .full →
      Fills rule group (tries + 1) [fragments] (.ok (Text.commaJoin fragments))
  | malformed {tries : Nat} {fragments : List Text} {cause : Malformed} :
      Ends rule.ticksPerBeat rule.ticks fragments (.malformed cause) →
      Fills rule group (tries + 1) [fragments] (.error (.malformed cause))
  | again {tries : Nat} {fragments : List Text} {attempts : List (List Text)}
      {result : Except Error Text} : Ends rule.ticksPerBeat rule.ticks fragments .past →
      Fills rule group tries attempts result →
      Fills rule group (tries + 1) (fragments :: attempts) result

/-- All of the tries are used, and each of them goes past the end. -/
def AllPast (rule : PartRule) (tries : Nat) (attempts : List (List Text)) : Prop :=
  attempts.length = tries ∧
    ∀ fragments ∈ attempts, Overshoots rule.ticksPerBeat rule.ticks fragments

/-- A group that never filled a part is reported if the length can be written. -/
theorem unfilled_eq_unsatisfied_iff {rule : PartRule} {group : Char} {cause : Unsatisfied} :
    unfilled rule group = .unsatisfied cause ↔
      ∃ ticks, Integer.write rule.ticks = .ok ticks ∧ cause = .part ticks [group] := by
  unfold unfilled
  cases hwrite : Integer.write rule.ticks with
  | ok ticks => simp [eq_comm]
  | error e =>
    rw [Integer.write_error_inv hwrite]
    exact iff_of_false nofun nofun

/-- The report fails as the writing of the length does. -/
theorem unfilled_eq_invalid_iff {rule : PartRule} {group : Char} {cause : Invalid} :
    unfilled rule group = .invalid cause ↔
      Integer.write rule.ticks = .error (.invalid cause) := by
  unfold unfilled
  cases Integer.write rule.ticks with
  | ok ticks => exact iff_of_false nofun nofun
  | error e => simp

namespace Fills

variable {rule : PartRule} {group : Char} {tries : Nat} {attempts : List (List Text)}
  {result : Except Error Text}

/-- There are no more attempts than tries. -/
theorem length_le (h : Fills rule group tries attempts result) : attempts.length ≤ tries := by
  induction h with
  | none => exact Nat.le_refl _
  | full | malformed => exact Nat.succ_le_succ (Nat.zero_le _)
  | again _ _ ih => exact Nat.succ_le_succ ih

/-- Every attempt ends in some way. -/
theorem exists_ends (h : Fills rule group tries attempts result) :
    ∀ fragments ∈ attempts, ∃ ending, Ends rule.ticksPerBeat rule.ticks fragments ending := by
  induction h with
  | none => nofun
  | full hends | malformed hends => simpa using ⟨_, hends⟩
  | again hends _ ih => exact List.forall_mem_cons.2 ⟨⟨_, hends⟩, ih⟩

/-- Only an attempt that goes past the end is followed by another one. -/
theorem overshoots_of_mem_dropLast (h : Fills rule group tries attempts result)
    (positive : 0 < rule.ticks) :
    ∀ fragments ∈ attempts.dropLast, Overshoots rule.ticksPerBeat rule.ticks fragments := by
  induction h with
  | none | full | malformed => nofun
  | @again _ _ attempts _ hends _ ih =>
    cases attempts with
    | nil => nofun
    | cons => exact List.forall_mem_cons.2 ⟨hends.describes positive, ih⟩

/-- The tries are used up if all attempts go past the end. Otherwise the last one comes to a part or
to a malformed fragment. -/
theorem result_cases (h : Fills rule group tries attempts result) (positive : 0 < rule.ticks) :
    AllPast rule tries attempts ∧ result = .error (unfilled rule group) ∨
      ¬ AllPast rule tries attempts ∧
        ((∃ text, result = .ok text) ∨ ∃ cause, result = .error (.malformed cause)) := by
  induction h with
  | none => exact .inl ⟨⟨rfl, nofun⟩, rfl⟩
  | full hends =>
    refine .inr ⟨fun hall => ?_, .inl ⟨_, rfl⟩⟩
    cases hends.eq_past (hall.2 _ List.mem_cons_self)
  | malformed hends =>
    refine .inr ⟨fun hall => ?_, .inr ⟨_, rfl⟩⟩
    cases hends.eq_past (hall.2 _ List.mem_cons_self)
  | again hends _ ih =>
    have hover : Overshoots rule.ticksPerBeat rule.ticks _ := hends.describes positive
    obtain ⟨⟨hlength, hall⟩, h⟩ | ⟨hnot, h⟩ := ih
    · exact .inl ⟨⟨congrArg _ hlength, List.forall_mem_cons.2 ⟨hover, hall⟩⟩, h⟩
    · refine .inr ⟨fun ⟨hlength, hall⟩ => hnot ⟨Nat.succ.inj hlength, ?_⟩, h⟩
      exact (List.forall_mem_cons.1 hall).2

/-- An error that is not about a fragment means that the tries are used up. -/
theorem eq_error_iff (h : Fills rule group tries attempts result) (positive : 0 < rule.ticks)
    {e : Error} (he : ∀ cause, e ≠ .malformed cause) :
    result = .error e ↔ unfilled rule group = e ∧ AllPast rule tries attempts := by
  obtain ⟨hall, rfl⟩ | ⟨hnot, ⟨text, rfl⟩ | ⟨cause, rfl⟩⟩ := h.result_cases positive
  · rw [Except.error.injEq, and_iff_left hall]
  · exact iff_of_false nofun fun h => hnot h.2
  · exact iff_of_false (fun h => he cause (Except.error.inj h).symm) fun h => hnot h.2

/-- All attempts go past the end, or one of them comes to a malformed fragment, or the lengths of
fragments that were picked add up to the part. -/
theorem allPast_or (h : Fills rule group tries attempts result) (positive : 0 < rule.ticks) :
    AllPast rule tries attempts ∨
      (∃ text ∈ attempts.flatten, ∃ cause,
        Length.countTicks text rule.ticksPerBeat = .error (.malformed cause) ∧
        result = .error (.malformed cause)) ∨
      ∃ lengths : Multiset Nat,
        (∀ n ∈ lengths, ∃ text ∈ attempts.flatten, Length.Lasts rule.ticksPerBeat text n) ∧
        lengths.sum = rule.ticks := by
  induction h with
  | none => exact .inl ⟨rfl, nofun⟩
  | full hends =>
    obtain ⟨lengths, hlengths, hsum⟩ := hends.describes positive
    refine .inr (.inr ⟨lengths, fun n hn => ?_, by rw [Multiset.sum_coe, hsum]⟩)
    rw [List.flatten_singleton]
    exact Outcome.exists_rel_of_mem hlengths (Multiset.mem_coe.1 hn)
  | malformed hends =>
    obtain ⟨text, hmem, hcount⟩ := hends.describes positive
    exact .inr (.inl ⟨text, by rwa [List.flatten_singleton], _, hcount, rfl⟩)
  | again hends _ ih =>
    obtain ⟨hlength, hall⟩ | ⟨text, hmem, h⟩ | ⟨lengths, hlengths, hsum⟩ := ih
    · exact .inl ⟨congrArg _ hlength, List.forall_mem_cons.2 ⟨hends.describes positive, hall⟩⟩
    · exact .inr (.inl ⟨text, List.mem_append_right _ hmem, h⟩)
    · refine .inr (.inr ⟨lengths, fun n hn => ?_, hsum⟩)
      obtain ⟨text, hmem, hlasts⟩ := hlengths n hn
      exact ⟨text, List.mem_append_right _ hmem, hlasts⟩

end Fills

section
variable {σ : Type} [Source σ] {rule : PartRule} {group : Char} {g : FragmentGroup}

/-- Filling comes to what the attempts come to that the picks make up. -/
theorem fillWithin_of_fills {tries : Nat} {attempts : List (List Text)} {result : Except Error Text}
    (h : Fills rule group tries attempts result) {source stop : σ}
    (hpicks : Source.Picks g.fragments g.nonempty source attempts.flatten stop) :
    fillWithin rule group (candidates rule.ticksPerBeat g) (candidates_ne_nil rule.ticksPerBeat g)
      tries source = (result, stop) := by
  induction h generalizing source with
  | none =>
    cases hpicks
    rfl
  | full hends | malformed hends =>
    rw [List.flatten_singleton] at hpicks
    rw [fillWithin, attempt_of_ends hends hpicks]
    rfl
  | again hends _ ih =>
    obtain ⟨middle, hfirst, hrest⟩ := hpicks.split
    rw [fillWithin, attempt_of_ends hends hfirst]
    exact ih hrest

/-- What is picked makes up attempts. -/
theorem exists_fills (group : Char) (g : FragmentGroup) (positive : 0 < rule.ticks) (tries : Nat)
    (source : σ) :
    ∃ attempts result stop, Source.Picks g.fragments g.nonempty source attempts.flatten stop ∧
      Fills rule group tries attempts result := by
  induction tries generalizing source with
  | zero => exact ⟨[], _, _, .nil, .none⟩
  | succ tries ih =>
    obtain ⟨fragments, ending, middle, hpicks, hends⟩ :=
      exists_ends rule.ticksPerBeat g positive source
    cases ending with
    | full => exact ⟨[fragments], _, _, by simpa using hpicks, .full hends⟩
    | malformed cause => exact ⟨[fragments], _, _, by simpa using hpicks, .malformed hends⟩
    | past =>
      obtain ⟨attempts, result, stop, hrest, hfills⟩ := ih middle
      exact ⟨fragments :: attempts, _, _, hpicks.append hrest, .again hends hfills⟩

end

/-- A part is begun at most a hundred times, each time with at most as many picks as it has ticks,
since every fragment that has a length lasts a tick. Filling fails for lack of fragments exactly if
a hundred attempts go past the end and the length can be written; if it cannot, this is the error.
If no lengths of fragments add up to the part, all attempts go past the end, unless a fragment that
is picked is malformed. -/
theorem fillWithin_gives_up_iff {σ : Type} [Source σ] {rule : PartRule} (positive : 0 < rule.ticks)
    (group : Char) (g : FragmentGroup) (source : σ) :
    let cs := candidates rule.ticksPerBeat g
    let nonempty := candidates_ne_nil rule.ticksPerBeat g
    let filled := fillWithin rule group cs nonempty fillLimit source
    let counted := fillWithin rule group cs nonempty fillLimit (Counted.mk source 0)
    (∀ text n, Length.Lasts rule.ticksPerBeat text n → 0 < n) ∧
    ∃ attempts : List (List Text),
      Source.Picks g.fragments g.nonempty source attempts.flatten filled.2 ∧
      counted = (filled.1, ⟨filled.2, attempts.flatten.length⟩) ∧
      attempts.length ≤ 100 ∧
      (∀ fragments ∈ attempts, fragments.length ≤ rule.ticks ∧
        ∃ ending, Ends rule.ticksPerBeat rule.ticks fragments ending) ∧
      (∀ fragments ∈ attempts.dropLast, Overshoots rule.ticksPerBeat rule.ticks fragments) ∧
      (∀ cause, filled.1 = .error (.unsatisfied cause) ↔
        (∃ ticks, Integer.write rule.ticks = .ok ticks ∧ cause = .part ticks [group]) ∧
          AllPast rule 100 attempts) ∧
      (∀ cause, filled.1 = .error (.invalid cause) ↔
        Integer.write rule.ticks = .error (.invalid cause) ∧ AllPast rule 100 attempts) ∧
      ((∀ lengths : Multiset Nat,
          (∀ n ∈ lengths, ∃ text ∈ g.fragments, Length.Lasts rule.ticksPerBeat text n) →
          lengths.sum ≠ rule.ticks) →
        AllPast rule 100 attempts ∨
          ∃ text ∈ attempts.flatten, ∃ cause,
            Length.countTicks text rule.ticksPerBeat = .error (.malformed cause) ∧
            filled.1 = .error (.malformed cause)) := by
  intro cs nonempty filled counted
  obtain ⟨attempts, result, stop, hcounted, hfills⟩ :=
    exists_fills group g positive fillLimit (Counted.mk source 0)
  obtain ⟨hpicks, hdraws⟩ := hcounted.of_counted
  have hfilled : filled = (result, stop.source) := fillWithin_of_fills hfills hpicks
  have hstop : stop = ⟨stop.source, attempts.flatten.length⟩ := by
    rw [← Nat.zero_add attempts.flatten.length, ← hdraws]
  rw [hfilled]
  refine ⟨fun _ _ => Length.Lasts.pos, attempts, hpicks, ?_, hfills.length_le, ?_,
    hfills.overshoots_of_mem_dropLast positive, fun cause => ?_, fun cause => ?_, ?_⟩
  · exact (fillWithin_of_fills hfills hcounted).trans (congrArg _ hstop)
  · intro fragments hmem
    obtain ⟨ending, hends⟩ := hfills.exists_ends fragments hmem
    exact ⟨hends.length_le positive, ending, hends⟩
  · rw [← unfilled_eq_unsatisfied_iff]
    exact hfills.eq_error_iff positive nofun
  · rw [← unfilled_eq_invalid_iff]
    exact hfills.eq_error_iff positive nofun
  · intro hnone
    obtain h | h | ⟨lengths, hlengths, hsum⟩ := hfills.allPast_or positive
    · exact .inl h
    · exact .inr h
    · refine absurd hsum (hnone lengths fun n hn => ?_)
      obtain ⟨text, hmem, hlasts⟩ := hlengths n hn
      exact ⟨text, hpicks.mem text hmem, hlasts⟩

/-- Fragments of two and of four ticks never fill a part of three. The first attempt goes past the
end with one pick, and all others with two. -/
theorem fillWithin_gives_up_even :
    let rule : PartRule := ⟨⟨[]⟩, 3, true, none⟩
    let g : FragmentGroup := ⟨'A', ["0/2".toList, "-/4".toList], by simp⟩
    let cs := candidates rule.ticksPerBeat g
    let nonempty := candidates_ne_nil rule.ticksPerBeat g
    let source : List Nat := [1]
    0 < rule.ticks ∧
      (∀ lengths : Multiset Nat,
        (∀ n ∈ lengths, ∃ text ∈ g.fragments, Length.Lasts none text n) → lengths.sum ≠ 3) ∧
      (fillWithin rule 'A' cs nonempty fillLimit source).1 =
        .error (.unsatisfied (.part ['3'] ['A'])) ∧
      ∃ attempts : List (List Text), attempts.flatten.length = 199 ∧ AllPast rule 100 attempts := by
  intro rule g cs nonempty source
  have hlasts : ∀ text ∈ g.fragments, Length.Lasts none text 2 ∨ Length.Lasts none text 4 := by
    simp only [g, List.forall_mem_cons, Length.Lasts]
    decide +kernel
  have heven : ∀ lengths : Multiset Nat,
      (∀ n ∈ lengths, ∃ text ∈ g.fragments, Length.Lasts none text n) → lengths.sum ≠ 3 := by
    refine Length.sum_ne_of_dvd (fun text hmem n hn => ?_) (show ¬ 2 ∣ 3 by decide)
    rcases hlasts text hmem with h | h
    · rw [hn.unique h]
    · rw [hn.unique h]
      decide
  obtain ⟨-, attempts, hpicks, hcounted, -, -, -, hgives, -, hfails⟩ :=
    fillWithin_gives_up_iff (show 0 < rule.ticks by decide) 'A' g source
  have hpast : AllPast rule 100 attempts := by
    refine (hfails heven).resolve_right ?_
    rintro ⟨text, hmem, cause, hcount, -⟩
    rcases hlasts text (hpicks.mem text hmem) with h | h
    all_goals exact h.countTicks_ne_error _ hcount
  have hdraws :
      (fillWithin rule 'A' cs nonempty fillLimit (Counted.mk source 0)).2.draws = 199 := by
    decide +kernel
  rw [hcounted] at hdraws
  exact ⟨by decide, heven, (hgives _).2 ⟨⟨['3'], by decide, rfl⟩, hpast⟩, attempts, hdraws, hpast⟩

/-- Fragments that are longer than a part go past its end in every attempt. If the length of the
part cannot be written, this is the error. -/
theorem fillWithin_of_long {σ : Type} [Source σ] {rule : PartRule} (positive : 0 < rule.ticks)
    {n : Nat} (hlong : rule.ticks < n) {g : FragmentGroup}
    (hlasts : ∀ text ∈ g.fragments, Length.Lasts rule.ticksPerBeat text n) {cause : Invalid}
    (hwrite : Integer.write rule.ticks = .error (.invalid cause)) (group : Char) (source : σ) :
    ∃ attempts stop, Source.Picks g.fragments g.nonempty source attempts.flatten stop ∧
      AllPast rule fillLimit attempts ∧
      fillWithin rule group (candidates rule.ticksPerBeat g) (candidates_ne_nil rule.ticksPerBeat g)
        fillLimit source = (.error (.invalid cause), stop) := by
  obtain ⟨attempts, result, stop, hpicks, hfills⟩ :=
    exists_fills group g positive fillLimit source
  have hpast : AllPast rule fillLimit attempts := by
    obtain h | ⟨text, hmem, _, hcount, -⟩ | ⟨lengths, hlengths, hsum⟩ := hfills.allPast_or positive
    · exact h
    · exact absurd hcount ((hlasts text (hpicks.mem text hmem)).countTicks_ne_error _)
    · have hdvd : ∀ text ∈ attempts.flatten, ∀ m,
          Length.Lasts rule.ticksPerBeat text m → n ∣ m := by
        intro text hmem m hm
        rw [hm.unique (hlasts text (hpicks.mem text hmem))]
      have hnot : ¬ n ∣ rule.ticks := Nat.not_dvd_of_pos_of_lt positive hlong
      exact absurd hsum (Length.sum_ne_of_dvd hdvd hnot lengths hlengths)
  have hresult : result = .error (.invalid cause) :=
    (hfills.eq_error_iff positive (by simp)).2 ⟨unfilled_eq_invalid_iff.2 hwrite, hpast⟩
  exact ⟨attempts, stop, hpicks, hpast, hresult ▸ fillWithin_of_fills hfills hpicks⟩

/-- Two ways in which filling fails for another reason. A fragment of two numbers that are as long
as can be written goes past the end of a part each time, but the length of that part is too long for
the report. And lengths of two ticks never add up to three, but a fragment without a length is
picked. -/
theorem fillWithin_unreported :
    let long : PartRule := ⟨⟨[]⟩, 10 ^ Integer.digitLimit, true, none⟩
    let double : FragmentGroup := ⟨'A', [Text.commaJoin [longestPause, longestPause]], by simp⟩
    let short : PartRule := ⟨⟨[]⟩, 3, true, none⟩
    let faulty : FragmentGroup := ⟨'A', ["0/2".toList, "0/0".toList], by simp⟩
    (∃ attempts stop, AllPast long 100 attempts ∧
        Source.Picks double.fragments double.nonempty ([] : List Nat) attempts.flatten stop ∧
        fillWithin long 'A' (candidates none double) (candidates_ne_nil none double) fillLimit
          ([] : List Nat) = (.error (.invalid .integerLength), stop)) ∧
      (∀ lengths : Multiset Nat,
        (∀ n ∈ lengths, ∃ text ∈ faulty.fragments, Length.Lasts none text n) →
          lengths.sum ≠ 3) ∧
      (fillWithin short 'A' (candidates none faulty) (candidates_ne_nil none faulty) fillLimit
        [1]).1 = .error (.malformed (.tokenLengthNotPositive "0/0".toList)) := by
  have hpositive := Integer.two_lt_limit
  have hlong := Integer.write_eq_error (Nat.le_refl (10 ^ Integer.digitLimit))
  have hpause := lasts_longestPause
  -- how large the limit is does not matter from here on, and is not to be computed
  generalize 10 ^ Integer.digitLimit = limit at hpositive hlong hpause ⊢
  generalize longestPause = pause at hpause ⊢
  intro long double short faulty
  have hdouble : ∀ text ∈ double.fragments, Length.Lasts none text (2 * (limit - 1)) :=
    List.forall_mem_singleton.2 (Length.lasts_commaJoin_of_forall (by simp) (by simp [hpause]))
  have hfaulty : ∀ text ∈ faulty.fragments, ∀ n, Length.Lasts none text n → 2 ∣ n := by
    refine List.forall_mem_cons.2 ⟨fun n hn => ?_, List.forall_mem_singleton.2 fun n hn => ?_⟩
    · have htwo : Length.Lasts none "0/2".toList 2 := by
        unfold Length.Lasts
        decide +kernel
      rw [hn.unique htwo]
    · have hzero : (Length.countTicks "0/0".toList none).map Subtype.val =
          .error (.malformed (.tokenLengthNotPositive "0/0".toList)) := by decide +kernel
      cases hzero.symm.trans hn
  refine ⟨?_, Length.sum_ne_of_dvd hfaulty (by decide), by decide +kernel⟩
  obtain ⟨attempts, stop, hpicks, hpast, hfill⟩ := fillWithin_of_long
    (show 0 < long.ticks from Nat.lt_trans Nat.two_pos hpositive)
    (show limit < 2 * (limit - 1) by omega) hdouble hlong 'A' ([] : List Nat)
  exact ⟨attempts, stop, hpast, hpicks, hfill⟩

end Layout

end Songsmith
