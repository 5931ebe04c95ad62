import Songsmith.Proofs.Harmony.Rendering

/-!
# What draws can change

Two renderings of one pattern from two sources are compared step by step. The tokens are resolved
in parallel, with as many names resolved before on either side: whether an index, a literal or a
palette reference is in order depends on the number of those names only
(`Resolution.agree_resolveTokens`), so that two passes agree but for a draw that runs out of tries.
What is resolved has the same marks and lengths on both sides (`Resolution.SameTokens`), and
stamping looks at nothing else of it to decide whether it fails and where the sections are
(`Stamping.related_timeline`). Where nothing is drawn, the source is not asked at all
(`Resolution.exists_resolve_of_drawless`).
-/

namespace Songsmith

open Outcome (Related)

/-- A bounded search has found nothing. -/
def GivesUp {α : Type} (x : Except Error α) : Prop := ∃ cause, x = .error (.unsatisfied cause)

namespace Resolution

/-! ## Passes in parallel -/

/-- Two passes agree: a draw runs out of tries in one of them, or they fail with the same error, or
both give results, which are related. -/
inductive Agree {α β : Type} (R : α → β → Prop) :
    Except Error (Option α) → Except Error (Option β) → Prop
  | exhaustedLeft (y : Except Error (Option β)) : Agree R (.ok none) y
  | exhaustedRight (x : Except Error (Option α)) : Agree R x (.ok none)
  | error (e : Error) : Agree R (.error e) (.error e)
  | ok {a : α} {b : β} : R a b → Agree R (.ok (some a)) (.ok (some b))

/-- Where nothing runs out of tries, related results agree. -/
theorem Agree.of_related {α β : Type} {R : α → β → Prop} {x : Except Error α} {y : Except Error β}
    (h : Related R x y) : Agree R (x.map some) (y.map some) := by
  cases h with
  | error e => exact .error e
  | ok hab => exact .ok hab

/-- If all results are related, it does not matter which of the passes runs out. -/
theorem Agree.of_options {α β : Type} {R : α → β → Prop} (h : ∀ a b, R a b) (a? : Option α)
    (b? : Option β) : Agree R (.ok a?) (.ok b?) := by
  cases a? with
  | none => exact .exhaustedLeft _
  | some a =>
    cases b? with
    | none => exact .exhaustedRight _
    | some b => exact .ok (h a b)

/-- Agreement is kept by functions that keep the relation. -/
theorem Agree.map {α β γ δ : Type} {R : α → β → Prop} {S : γ → δ → Prop} {f : α → γ} {g : β → δ}
    {x : Except Error (Option α)} {y : Except Error (Option β)} (h : Agree R x y)
    (hfg : ∀ a b, R a b → S (f a) (g b)) : Agree S (x.map (·.map f)) (y.map (·.map g)) := by
  cases h with
  | exhaustedLeft => exact .exhaustedLeft _
  | exhaustedRight => exact .exhaustedRight _
  | error e => exact .error e
  | ok hab => exact .ok (hfg _ _ hab)

/-- Two lists of resolved tokens with the same marks and the same lengths. -/
abbrev SameTokens : List ResolvedToken → List ResolvedToken → Prop :=
  List.Forall₂ fun r r' => r.startsSection = r'.startsSection ∧ r.beats = r'.beats

section
variable {σ τ : Type} [Source σ] [Source τ] {palettes : List Palette}
  {done done' : List ChordName} {isLast : Bool} {reference : Text}

/-- A position is behind the end of both of two equally long lists, or of neither. -/
theorem getElem?_of_length_eq (h : done.length = done'.length) (position : Nat) :
    (done[position]? = none ∧ done'[position]? = none) ∨
      ∃ name name', done[position]? = some name ∧ done'[position]? = some name' := by
  by_cases hlt : position < done.length
  · exact .inr ⟨_, _, List.getElem?_eq_getElem hlt, List.getElem?_eq_getElem (h ▸ hlt)⟩
  · have hle : done.length ≤ position := Nat.le_of_not_lt hlt
    exact .inl ⟨List.getElem?_eq_none hle, List.getElem?_eq_none (h ▸ hle)⟩

/-- Whether a backreference leads to a name depends only on how many there are before it. -/
theorem related_backName (h : done.length = done'.length) (digits : Text) :
    Related (fun _ _ => True) (backName done reference digits)
      (backName done' reference digits) := by
  unfold backName
  refine Related.bind (.of_eq rfl) ?_
  rintro index _ rfl
  obtain ⟨hnone, hnone'⟩ | ⟨name, name', hname, hname'⟩ := getElem?_of_length_eq h index
  · rw [hnone, hnone', h]
    exact .error _
  · rw [hname, hname']
    exact .ok trivial

/-- Whether an excluded position has a name depends only on how many there are. -/
theorem related_excludedName (h : done.length = done'.length) (exclusion : Option Text) :
    Related (fun _ _ => True) (excludedName done reference exclusion)
      (excludedName done' reference exclusion) := by
  cases exclusion with
  | none => exact .ok trivial
  | some digits =>
    refine Related.bind (.of_eq rfl) ?_
    rintro index _ rfl
    obtain ⟨hnone, hnone'⟩ | ⟨name, name', hname, hname'⟩ := getElem?_of_length_eq h index
    · rw [hnone, hnone']
      exact .error _
    · rw [hname, hname']
      exact .ok trivial

/-- Whether a reference can be drawn for depends only on how many names there are before it. -/
theorem related_drawRule (h : done.length = done'.length) :
    Related (fun _ _ => True) (drawRule palettes done isLast reference)
      (drawRule palettes done' isLast reference) := by
  unfold drawRule
  split
  · exact .error _
  · refine Related.bind (.of_eq rfl) ?_
    rintro index _ rfl
    split
    · exact .error _
    · exact Related.bind (related_excludedName h _) fun _ _ _ => .ok trivial

/-- The names that one reference stands for agree after equally many names. -/
theorem agree_resolveReference (h : done.length = done'.length) (source : σ) (source' : τ) :
    Agree (fun _ _ => True) (resolveReference palettes done isLast reference source).1
      (resolveReference palettes done' isLast reference source').1 := by
  unfold resolveReference
  split
  · exact .of_related (related_backName h _)
  · split
    · exact .of_related ((Related.of_eq rfl).imp fun _ _ _ => trivial)
    · -- The draws may differ, but not whether one is made.
      rename_i c rest _ _
      have hrule : Related (fun _ _ => True) (drawRule palettes done isLast (c :: rest))
          (drawRule palettes done' isLast (c :: rest)) := related_drawRule h
      generalize drawRule palettes done isLast (c :: rest) = rule at hrule ⊢
      generalize drawRule palettes done' isLast (c :: rest) = rule' at hrule ⊢
      cases hrule with
      | error e => exact .error e
      | @ok rule rule' =>
        obtain ⟨palette, excluded⟩ := rule
        obtain ⟨palette', excluded'⟩ := rule'
        dsimp only
        generalize drawOutside palette excluded drawLimit source = drawn
        generalize drawOutside palette' excluded' drawLimit source' = drawn'
        exact .of_options (fun _ _ => trivial) drawn.1 drawn'.1
  · exact .error _

/-- The passes agree after equally many names. -/
theorem agree_resolveTokens (h : done.length = done'.length) (tokens : List ChordToken) (source : σ)
    (source' : τ) :
    Agree SameTokens (resolveTokens palettes done tokens source).1
      (resolveTokens palettes done' tokens source').1 := by
  induction tokens generalizing done done' source source' with
  | nil => exact .ok .nil
  | cons token rest ih =>
    have hname : Agree (fun _ _ => True)
        (resolveReference palettes done rest.isEmpty token.reference source).1
        (resolveReference palettes done' rest.isEmpty token.reference source').1 :=
      agree_resolveReference h source source'
    rw [resolveTokens, resolveTokens]
    generalize resolveReference palettes done rest.isEmpty token.reference source = first at hname ⊢
    generalize resolveReference palettes done' rest.isEmpty token.reference source' = first'
      at hname ⊢
    obtain ⟨x, next⟩ := first
    obtain ⟨y, next'⟩ := first'
    cases hname with
    | exhaustedLeft => exact .exhaustedLeft _
    | exhaustedRight => exact .exhaustedRight _
    | error e => exact .error e
    | @ok name name' =>
      have hlength : (done ++ [name]).length = (done' ++ [name']).length := by
        rw [List.length_append, List.length_append, h]
        rfl
      exact (ih hlength next next').map fun _ _ hrest => .cons ⟨rfl, rfl⟩ hrest

/-- The passes together fail because a draw runs out of tries, or end as one of them does. -/
theorem result_resolvePasses (pattern : Text) (tokens : List ChordToken) (restarts left : Nat)
    (source : σ) :
    (resolvePasses palettes pattern tokens restarts left source).result =
        .error (.unsatisfied (.chords pattern)) ∨
      ∃ start : σ, (resolveTokens palettes [] tokens start).1 =
        (resolvePasses palettes pattern tokens restarts left source).result.map some := by
  fun_induction resolvePasses palettes pattern tokens restarts left source with
  | case1 restarts left source e next hpass => exact .inr ⟨source, congrArg Prod.fst hpass⟩
  | case2 restarts left source resolved next hpass => exact .inr ⟨source, congrArg Prod.fst hpass⟩
  | case3 => exact .inl rfl
  | case4 restarts source left next _ ih => exact ih

/-- Results that agree although nothing runs out are related. -/
theorem Agree.related {α β : Type} {R : α → β → Prop} {x : Except Error α} {y : Except Error β}
    (h : Agree R (x.map some) (y.map some)) : Related R x y := by
  cases x with
  | error e =>
    cases y with
    | error e' =>
      cases h
      exact .error e
    | ok b => cases h
  | ok a =>
    cases y with
    | error e' => cases h
    | ok b =>
      cases h with
      | ok hab => exact .ok hab

/-- Two results of resolving one pattern have the same marks and lengths, or are the same error,
unless one of them gives up. -/
theorem related_resolve (palettes : List Palette) (p : ChordPattern) (source : σ) (source' : τ) :
    GivesUp (resolve palettes p source).result ∨ GivesUp (resolve palettes p source').result ∨
      Related SameTokens (resolve palettes p source).result
        (resolve palettes p source').result := by
  unfold resolve
  split
  · exact .inr (.inr (.error _))
  · rename_i tokens _
    rcases result_resolvePasses p.text tokens 0 restartLimit source with h | ⟨start, h⟩
    · exact .inl ⟨_, h⟩
    rcases result_resolvePasses p.text tokens 0 restartLimit source' with h' | ⟨start', h'⟩
    · exact .inr (.inl ⟨_, h'⟩)
    have hagree : Agree SameTokens (resolveTokens palettes [] tokens start).1
        (resolveTokens palettes [] tokens start').1 := agree_resolveTokens rfl tokens start start'
    rw [h, h'] at hagree
    exact .inr (.inr hagree.related)

end

/-! ## Without draws -/

/-- What is no palette reference is resolved without asking the source. -/
theorem exists_resolveReference (palettes : List Palette) (done : List ChordName) (isLast : Bool)
    {reference : Text} (h : paletteDigits? reference = none) :
    ∃ r : Except Error ChordName, ∀ {σ : Type} [Source σ] (source : σ),
      resolveReference palettes done isLast reference source = (r.map some, source) := by
  cases reference with
  | nil => exact ⟨.error _, fun _ => rfl⟩
  | cons c rest =>
    by_cases hmark : c = '$'
    · subst hmark
      exact ⟨_, fun _ => rfl⟩
    · by_cases hletter : Text.isLetter c = true
      · exact ⟨_, resolveReference_of_letter hletter⟩
      · have hrule : drawRule palettes done isLast (c :: rest) =
            .error (.malformed (.tableReference (c :: rest))) := by
          unfold drawRule
          rw [h]
        exact ⟨.error _, resolveReference_of_drawRule hmark (Bool.eq_false_iff.2 hletter) hrule⟩

/-- A pass over tokens of which none is drawn gives the same whatever the source is, and leaves it
as it was. -/
theorem exists_resolveTokens (palettes : List Palette) (done : List ChordName)
    {tokens : List ChordToken}
    (h : ∀ token ∈ tokens, paletteDigits? token.reference = none) :
    ∃ r : Except Error (List ResolvedToken), ∀ {σ : Type} [Source σ] (source : σ),
      resolveTokens palettes done tokens source = (r.map some, source) := by
  induction tokens generalizing done with
  | nil => exact ⟨.ok [], fun _ => rfl⟩
  | cons token rest ih =>
    obtain ⟨first, hfirst⟩ :=
      exists_resolveReference palettes done rest.isEmpty (h token List.mem_cons_self)
    cases first with
    | error e =>
      refine ⟨.error e, fun source => ?_⟩
      rw [resolveTokens, hfirst]
      rfl
    | ok name =>
      obtain ⟨others, hothers⟩ := ih (done ++ [name])
        fun token htoken => h token (List.mem_cons_of_mem _ htoken)
      refine ⟨others.map (⟨token.startsSection, name, token.beats⟩ :: ·), fun source => ?_⟩
      rw [resolveTokens, hfirst]
      simp only [Except.map, hothers]
      cases others <;> rfl

end Resolution

/-- There is no palette reference among the tokens of the pattern. -/
def ChordPattern.Drawless (p : ChordPattern) : Prop :=
  ∀ tokens, p.tokens = .ok tokens →
    ∀ token ∈ tokens, Resolution.paletteDigits? token.reference = none

/-- A pattern without palette references is resolved without asking the source. -/
theorem Resolution.exists_resolve_of_drawless (palettes : List Palette) {p : ChordPattern}
    (h : p.Drawless) :
    ∃ r, ∀ {σ : Type} [Source σ] (source : σ), (resolve palettes p source).result = r := by
  cases htokens : p.tokens with
  | error e =>
    refine ⟨.error e, fun source => ?_⟩
    rw [resolve, htokens]
  | ok tokens =>
    obtain ⟨r, hr⟩ := exists_resolveTokens palettes [] (h tokens htokens)
    refine ⟨r, fun source => ?_⟩
    rw [resolve_eq_resolvePasses htokens, resolvePasses_of_pass (hr source)]

namespace Stamping

/-! ## Stamping in parallel -/

section
variable {settings : Settings} {first first' : ChordName} {ticks : Nat}

/-- The mark and the length of a stamp. -/
def Stamp.outline (s : Stamp) : Bool × Nat := (s.startsSection, s.ticks)

/-- Tokens with the same mark and length have stamps of the same outline, or fail alike. -/
theorem related_stamp {token token' : ResolvedToken}
    (h : token.startsSection = token'.startsSection ∧ token.beats = token'.beats) :
    Related (fun s s' => s.outline = s'.outline) (stamp settings first token)
      (stamp settings first' token') := by
  obtain ⟨hmark, hbeats⟩ := h
  unfold stamp
  rw [hbeats]
  split
  · exact .error _
  · split
    · exact .ok (by rw [Stamp.outline, Stamp.outline, hmark])
    · exact .error _

/-- Patterns that differ in their names alone are stamped with the same outlines, or fail alike. -/
theorem related_stampsWithin {tokens tokens' : List ResolvedToken}
    (h : Resolution.SameTokens tokens tokens') :
    Related (fun items items' => items.map Stamp.outline = items'.map Stamp.outline)
      (stampsWithin settings first ticks tokens) (stampsWithin settings first' ticks tokens') := by
  induction h generalizing ticks with
  | nil =>
    unfold stampsWithin
    exact .ok rfl
  | cons htoken _ ih =>
    cases ticks with
    | zero => exact .ok rfl
    | succ ticks =>
      rw [stampsWithin, stampsWithin]
      refine (related_stamp htoken).bind fun s s' hs => ?_
      rw [show s.ticks = s'.ticks from congrArg Prod.snd hs]
      refine ih.bind fun items items' hitems => .ok ?_
      rw [List.map_cons, List.map_cons, hs, hitems]

/-- Puts an occurrence in front of sections as `prependSection` does, by mark and length. -/
def prependOutline (o : Occurrence (Bool × Nat)) (sections : Nat × List Nat) : Nat × List Nat :=
  if o.item.1 then (0, (o.ticks + sections.1) :: sections.2)
  else (o.ticks + sections.1, sections.2)

/-- Sections are as long as the outlines say; the chords have no part in it. -/
theorem sectionLengths_eq (items : List Stamp) (ticks : Nat) :
    sectionLengths (Cycle.lay Stamp.ticks items ticks) =
      ((Cycle.lay Prod.snd (items.map Stamp.outline) ticks).foldr prependOutline (0, [])).2 := by
  rw [Cycle.lay_map, List.foldr_map]
  rfl

/-- Stamping tokens with the same marks and lengths fails in the same way, or gives timelines with
the same sections. -/
theorem related_timeline {tokens tokens' : List ResolvedToken}
    (h : Resolution.SameTokens tokens tokens') :
    Related (fun t t' =>
        t'.slots.toList.map Slot.sectionTicks = t.slots.toList.map Slot.sectionTicks)
      (timeline settings ticks tokens) (timeline settings ticks tokens') := by
  cases h with
  | nil => exact (Related.of_eq rfl).imp fun _ _ heq => by rw [heq]
  | @cons first first' rest rest' htoken hrest =>
    have hmarked : Resolution.SameTokens ({ first with startsSection := true } :: rest)
        ({ first' with startsSection := true } :: rest') := .cons ⟨rfl, htoken.2⟩ hrest
    have hstamps : Related (fun items items' => items.map Stamp.outline = items'.map Stamp.outline)
        (stamps settings ticks (first :: rest)) (stamps settings ticks (first' :: rest')) :=
      related_stampsWithin hmarked
    obtain ⟨e, he, he'⟩ | ⟨items, items', hitems, hitems', houtline⟩ :=
      Outcome.related_iff.1 hstamps
    · exact Outcome.related_iff.2 (.inl ⟨e, Outcome.bind_eq_error_iff.2 (.inl he),
        Outcome.bind_eq_error_iff.2 (.inl he')⟩)
    · obtain ⟨t, ht, -, -, hsections⟩ := timeline_of_stamps hitems
      obtain ⟨t', ht', -, -, hsections'⟩ := timeline_of_stamps hitems'
      refine Outcome.related_iff.2 (.inr ⟨t, t', ht, ht', ?_⟩)
      rw [hsections, hsections', sectionLengths_eq, sectionLengths_eq, houtline]

end

end Stamping

/-! ## Renderings in parallel -/

/-- A rendering that succeeds goes with one that gives up, or that succeeds with the same counters
of sections; and one that fails otherwise than by giving up goes with one that gives up or fails
with the same error. -/
structure SameButChords (x y : Except Error Timeline) : Prop where
  ok : ∀ t, x = .ok t → GivesUp y ∨ ∃ t', y = .ok t' ∧
    t'.slots.toList.map Slot.sectionTicks = t.slots.toList.map Slot.sectionTicks
  error : ∀ e, x = .error e → ¬ GivesUp x → GivesUp y ∨ y = .error e

namespace HarmonyEngine

variable {σ τ : Type} [Source σ] [Source τ] {engine : HarmonyEngine} {pattern : ChordPattern}

/-- Two renderings of the only pattern agree, unless one of them gives up. -/
theorem related_renderFrom (hpattern : engine.patterns = [pattern]) (song : Structure) (source : σ)
    (source' : τ) :
    GivesUp (engine.renderFrom song source).result ∨
      GivesUp (engine.renderFrom song source').result ∨
      Related (fun t t' =>
          t'.slots.toList.map Slot.sectionTicks = t.slots.toList.map Slot.sectionTicks)
        (engine.renderFrom song source).result (engine.renderFrom song source').result := by
  rw [result_renderFrom, result_renderFrom, Source.pick_singleton source hpattern,
    Source.pick_singleton source' hpattern]
  generalize (Source.pick source engine.patterns engine.nonempty).2 = drawn
  generalize (Source.pick source' engine.patterns engine.nonempty).2 = drawn'
  obtain ⟨cause, h⟩ | ⟨cause, h⟩ | h :=
    Resolution.related_resolve engine.palettes pattern drawn drawn'
  · exact .inl ⟨cause, Outcome.bind_eq_error_iff.2 (.inl h)⟩
  · exact .inr (.inl ⟨cause, Outcome.bind_eq_error_iff.2 (.inl h)⟩)
  · exact .inr (.inr (h.bind fun _ _ => Stamping.related_timeline))

/-- Without palette references, two renderings of the only pattern are equal. -/
theorem result_renderFrom_of_drawless (hpattern : engine.patterns = [pattern])
    (h : pattern.Drawless) (song : Structure) (source : σ) (source' : τ) :
    (engine.renderFrom song source).result = (engine.renderFrom song source').result := by
  obtain ⟨r, hr⟩ := Resolution.exists_resolve_of_drawless engine.palettes h
  rw [result_renderFrom, result_renderFrom, Source.pick_singleton source hpattern,
    Source.pick_singleton source' hpattern, hr, hr]

/-- What is drawn changes nothing but the chords: two renderings of an engine with one pattern
differ otherwise only if a draw runs out of tries in one of them, and without palette references
they do not differ at all. -/
theorem draws_change_only_chords (hpattern : engine.patterns = [pattern]) (song : Structure)
    (source : σ) (source' : τ) :
    SameButChords (engine.renderFrom song source).result (engine.renderFrom song source').result ∧
      (pattern.Drawless →
        (engine.renderFrom song source).result = (engine.renderFrom song source').result) := by
  refine ⟨?_, fun h => result_renderFrom_of_drawless hpattern h song source source'⟩
  have hrelated := related_renderFrom hpattern song source source'
  generalize (engine.renderFrom song source).result = x at hrelated ⊢
  generalize (engine.renderFrom song source').result = y at hrelated ⊢
  rcases hrelated with hx | hy | h
  · refine ⟨fun t ht => ?_, fun e _ hnot => absurd hx hnot⟩
    obtain ⟨cause, hx⟩ := hx
    rw [hx] at ht
    cases ht
  · exact ⟨fun _ _ => .inl hy, fun _ _ _ => .inl hy⟩
  · cases h with
    | error e =>
      refine ⟨nofun, fun e' he _ => .inr ?_⟩
      cases he
      rfl
    | ok hsections =>
      refine ⟨fun t ht => .inr ⟨_, rfl, ?_⟩, nofun⟩
      cases ht
      exact hsections

/-- Two draws from a palette in front of a literal that starts a section. -/
theorem draws_change_only_chords_of_palette :
    let engine : HarmonyEngine := ⟨[⟨"0/1,+C/2".toList, none, none, by decide⟩],
      [⟨[⟨['F'], by decide⟩, ⟨['G'], by decide⟩], by simp⟩], false, 2, by simp⟩
    let song : Structure := ⟨4, 1, 127, by decide, by decide, by decide⟩
    ∃ t t', (engine.renderFrom song [0, 0]).result = .ok t ∧
      (engine.renderFrom song [0, 1]).result = .ok t' ∧ t' ≠ t ∧
      t'.slots.toList.map Slot.sectionTicks = t.slots.toList.map Slot.sectionTicks := by
  intro engine song
  let c : Chord := ⟨0, .major, 0, ['C']⟩
  let f : Chord := ⟨5, .major, -1, ['F']⟩
  let g : Chord := ⟨7, .major, -1, ['G']⟩
  have hrender : (engine.renderFrom song [0, 0]).result =
      .ok ⟨#[⟨f, 1, 1⟩, ⟨c, 2, 2⟩, ⟨c, 1, 1⟩, ⟨f, 1, 1⟩]⟩ := by decide +kernel
  have hrender' : (engine.renderFrom song [0, 1]).result =
      .ok ⟨#[⟨g, 1, 1⟩, ⟨c, 2, 2⟩, ⟨c, 1, 1⟩, ⟨g, 1, 1⟩]⟩ := by decide +kernel
  have hpattern : engine.patterns = [⟨"0/1,+C/2".toList, none, none, by decide⟩] := rfl
  obtain ⟨⟨hok, -⟩, -⟩ := draws_change_only_chords hpattern song [0, 0] [0, 1]
  obtain ⟨cause, hgivesUp⟩ | ⟨t', ht', hsections⟩ := hok _ hrender
  · rw [hrender'] at hgivesUp
    cases hgivesUp
  · rw [hrender'] at ht'
    cases ht'
    exact ⟨_, _, hrender, hrender', by decide, hsections⟩

end HarmonyEngine

end Songsmith
