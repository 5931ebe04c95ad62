import Songsmith.Proofs.Harmony.Tokens

/-!
# What chord patterns are resolved to

A chord pattern is resolved to a text, and what is played is read from that text. The text is cut
into as many tokens as the pattern has, with the same section marks and the same lengths, and the
name that is read at every position is one that the reference there stands for
(`Resolution.Resolves`). A literal keeps its name, a backreference has the name at an earlier
position, and a draw is a name of its palette that differs from the chord before, from the first
chord if it is the last one, and from the chord at the position it excludes
(`Resolution.KeptFrom`). Since a name may have blanks in front of it, which are lost where a token
is read that has no section mark, names are only the same but for these blanks
(`ChordName.SameButBlanks`). `Resolution.resolve_sound` says so of every result.

The proof follows the tokens from the left, with the names resolved so far as a prefix of all names
(`resolveTokens_sound`). Up to there the names are those that were resolved, blanks and all. A
discarded pass leaves nothing behind but the state of the source, so the passes need no invariant.
-/

namespace Songsmith.Resolution

/-! ## The meaning of references -/

/-- A palette reference: the digits of the palette and those of an excluded position, if there is
one. A line break may end it. -/
inductive PaletteText : (reference number : Text) → (exclusion : Option Text) → Prop
  | plain {number lineEnd : Text} : number ≠ [] → number.all Text.isDecimalDigit = true →
      lineEnd = [] ∨ lineEnd = ['\n'] → PaletteText (number ++ lineEnd) number none
  | excluding {number digits lineEnd : Text} : number ≠ [] →
      number.all Text.isDecimalDigit = true → digits ≠ [] →
      digits.all Text.isDecimalDigit = true → lineEnd = [] ∨ lineEnd = ['\n'] →
      PaletteText (number ++ '!' :: digits ++ lineEnd) number (some digits)

/-- The name at a position means another harmony than the one before, the first one if the position
is the last, and the one at the excluded position, which comes earlier. -/
structure KeptFrom (names : List ChordName) (position : Nat) (exclusion : Option Text)
    (name : ChordName) : Prop where
  previous : ∀ other, 0 < position → names[position - 1]? = some other →
    name.sameHarmony other = false
  first : ∀ other, 0 < position → position + 1 = names.length → names[0]? = some other →
    name.sameHarmony other = false
  excluded : ∀ digits, exclusion = some digits → ∃ index other,
    Integer.readNat digits = .ok index ∧ index < position ∧ names[index]? = some other ∧
      name.sameHarmony other = false

/-- The name at a position is one that the reference there stands for, given the names at all
positions. What a reference gives the name of is the same name, in one sense or another. -/
inductive Resolves (same : ChordName → ChordName → Prop) (palettes : List Palette)
    (names : List ChordName) (position : Nat) : (reference : Text) → (name : ChordName) → Prop
  | literal {c : Char} {rest : Text} {name : ChordName} : Text.isLetter c = true →
      name.text = c :: rest → Resolves same palettes names position (c :: rest) name
  | back {digits : Text} {index : Nat} {earlier name : ChordName} :
      Text.isNumeralText digits = true → Integer.readNat digits = .ok index → index < position →
      names[index]? = some earlier → same earlier name →
      Resolves same palettes names position ('$' :: digits) name
  | draw {reference number : Text} {exclusion : Option Text} {index : Nat} {palette : Palette}
      {member name : ChordName} : reference.head?.any Text.isLetter = false →
      PaletteText reference number exclusion → Integer.readNat number = .ok index →
      palettes[index]? = some palette → member ∈ palette.names → same member name →
      KeptFrom names position exclusion name →
      Resolves same palettes names position reference name

/-- What is read from a resolved pattern, token by token and name by name, is what the tokens of the
pattern stand for. -/
structure Sound (palettes : List Palette) (tokens reads : List ChordToken)
    (names : List ChordName) : Prop where
  aligned : List.Forall₂
    (fun token r => r.startsSection = token.startsSection ∧ r.beats = token.beats) tokens reads
  named : reads.map (·.reference) = names.map (·.text)
  resolves : ∀ (position : Nat) token name, tokens[position]? = some token →
    names[position]? = some name →
    Resolves ChordName.SameButBlanks palettes names position token.reference name

/-! ## Palette references -/

/-- Only a line break at the end is taken off. -/
theorem exists_lineEnd (reference : Text) : ∃ lineEnd, (lineEnd = [] ∨ lineEnd = ['\n']) ∧
    withoutLineBreak reference ++ lineEnd = reference := by
  unfold withoutLineBreak
  split
  · rename_i hlast
    exact ⟨['\n'], .inr rfl, List.dropLast_append_getLast? _ hlast⟩
  · exact ⟨[], .inl rfl, List.append_nil _⟩

/-- A reference that is read as that of a palette is one. -/
theorem paletteText_of_digits {reference number : Text} {exclusion : Option Text}
    (h : paletteDigits? reference = some (number, exclusion)) :
    PaletteText reference number exclusion := by
  obtain ⟨lineEnd, hend, hreference⟩ := exists_lineEnd reference
  unfold paletteDigits? at h
  generalize withoutLineBreak reference = body at h hreference
  subst hreference
  have hall := List.all_takeWhile (p := Text.isDecimalDigit) (l := body)
  have hbody := List.takeWhile_append_dropWhile (p := Text.isDecimalDigit) (l := body)
  simp only at h
  split at h
  · rename_i hnumber hrest
    cases h
    rw [hrest, List.append_nil] at hbody
    nth_rewrite 1 [← hbody]
    exact .plain (by rw [hnumber]; exact List.cons_ne_nil _ _) hall hend
  · rename_i hnumber hrest
    split at h
    · rename_i hdigits
      cases h
      rw [hrest] at hbody
      nth_rewrite 1 [← hbody]
      exact .excluding (by rw [hnumber]; exact List.cons_ne_nil _ _) hall (List.cons_ne_nil _ _)
        hdigits hend
    · cases h
  · cases h

section
variable {palettes : List Palette} {done later : List ChordName} {isLast : Bool}
  {reference : Text} {name : ChordName} {σ : Type} [Source σ] {source source' : σ}

/-! ## One reference -/

/-- What is drawn is in the palette and differs from what is excluded. -/
theorem drawOutside_sound {palette : Palette} {excluded : List ChordName} {tries : Nat}
    (h : drawOutside palette excluded tries source = (some name, source')) :
    name ∈ palette.names ∧ excluded.any name.sameHarmony = false := by
  induction tries generalizing source with
  | zero => cases h
  | succ tries ih =>
    have hpick := Source.pick_mem source palette.names palette.nonempty
    simp only [drawOutside] at h
    split at h
    · exact ih h
    · rename_i hexcluded
      cases h
      exact ⟨hpick, Bool.eq_false_iff.2 hexcluded⟩

/-- A name that differs from the neighbours and from what else is excluded is kept from them. -/
theorem keptFrom_of_any {excluded : List ChordName} {exclusion : Option Text}
    (hlast : later = [] → isLast = true)
    (hexcluded : excludedName done reference exclusion = .ok excluded)
    (hany : (neighbours done isLast ++ excluded).any name.sameHarmony = false) :
    KeptFrom (done ++ name :: later) done.length exclusion name := by
  have hkept : ∀ {other}, other ∈ neighbours done isLast ++ excluded →
      name.sameHarmony other = false := fun hmem =>
    Bool.eq_false_iff.2 (List.any_eq_false.1 hany _ hmem)
  refine ⟨fun other hpos hother => ?_, fun other hpos hlen hother => ?_, ?_⟩
  · rw [List.getElem?_append_left (by omega), ← List.getLast?_eq_getElem?] at hother
    exact hkept (by simp [neighbours, hother])
  · have hlater : later = [] := by
      rw [List.length_append, List.length_cons] at hlen
      exact List.length_eq_zero_iff.1 (by omega)
    rw [List.getElem?_append_left hpos, ← List.head?_eq_getElem?] at hother
    exact hkept (by simp [neighbours, hlast hlater, hother])
  · rintro digits rfl
    obtain ⟨index, hindex, hname⟩ := Outcome.bind_eq_ok_iff.1 hexcluded
    split at hname
    · rename_i other hother
      cases hname
      have hlt := (List.getElem?_eq_some_iff.1 hother).1
      exact ⟨index, other, hindex, hlt, by rwa [List.getElem?_append_left hlt],
        hkept (by simp)⟩
    · cases hname

/-- A backreference gives the name at an earlier position. -/
theorem backName_inv {digits : Text} (h : backName done reference digits = .ok name) :
    ∃ index, Text.isNumeralText digits = true ∧ Integer.readNat digits = .ok index ∧
      done[index]? = some name := by
  obtain ⟨index, hindex, hname⟩ := Outcome.bind_eq_ok_iff.1 h
  unfold backPosition at hindex
  split at hindex
  · rename_i hnumeral
    split at hname
    · rename_i hother
      cases hname
      exact ⟨index, hnumeral, hindex, hother⟩
    · cases hname
  · cases hindex

/-- What a palette reference asks for. -/
theorem drawRule_inv {palette : Palette} {excluded : List ChordName}
    (h : drawRule palettes done isLast reference = .ok (palette, excluded)) :
    ∃ number exclusion index more, paletteDigits? reference = some (number, exclusion) ∧
      Integer.readNat number = .ok index ∧ palettes[index]? = some palette ∧
      excludedName done reference exclusion = .ok more ∧
      excluded = neighbours done isLast ++ more := by
  unfold drawRule at h
  split at h
  · cases h
  · rename_i number exclusion hdigits
    obtain ⟨index, hindex, h⟩ := Outcome.bind_eq_ok_iff.1 h
    split at h
    · cases h
    · rename_i hpalette
      obtain ⟨more, hmore, h⟩ := Outcome.bind_eq_ok_iff.1 h
      cases h
      exact ⟨number, exclusion, index, more, hdigits, hindex, hpalette, hmore, rfl⟩

/-- The name that a reference is resolved to is one that it stands for. -/
theorem resolveReference_sound (hlast : later = [] → isLast = true)
    (h : resolveReference palettes done isLast reference source = (.ok (some name), source')) :
    Resolves Eq palettes (done ++ name :: later) done.length reference name := by
  unfold resolveReference at h
  split at h
  · obtain ⟨back, hback, hname⟩ := Outcome.map_eq_ok_iff.1 (congrArg Prod.fst h)
    cases hname
    obtain ⟨index, hnumeral, hindex, hother⟩ := backName_inv hback
    have hlt := (List.getElem?_eq_some_iff.1 hother).1
    exact .back hnumeral hindex hlt (by rwa [List.getElem?_append_left hlt]) rfl
  · split at h
    · rename_i hletter
      obtain ⟨read, hread, hname⟩ := Outcome.map_eq_ok_iff.1 (congrArg Prod.fst h)
      cases hname
      unfold ChordName.read at hread
      split at hread
      · cases hread
        exact .literal hletter rfl
      · cases hread
    · rename_i hletter
      split at h
      · cases h
      · rename_i palette excluded hrule
        obtain ⟨number, exclusion, index, more, hdigits, hindex, hpalette, hmore, rfl⟩ :=
          drawRule_inv hrule
        have hdraw : drawOutside palette (neighbours done isLast ++ more) drawLimit source =
            (some name, source') := by
          cases hresult : drawOutside palette (neighbours done isLast ++ more) drawLimit source
          rw [hresult] at h
          cases h
          rfl
        obtain ⟨hmem, hany⟩ := drawOutside_sound hdraw
        exact .draw (Bool.eq_false_iff.2 hletter) (paletteText_of_digits hdigits) hindex hpalette
          hmem rfl (keptFrom_of_any hlast hmore hany)
  · cases h

/-! ## All references -/

/-- The first token is resolved first, and the others behind its name. -/
theorem resolveTokens_cons_inv {token : ChordToken} {rest : List ChordToken}
    {resolved : List ResolvedToken}
    (h : resolveTokens palettes done (token :: rest) source = (.ok (some resolved), source')) :
    ∃ name middle others,
      resolveReference palettes done rest.isEmpty token.reference source =
        (.ok (some name), middle) ∧
      resolveTokens palettes (done ++ [name]) rest middle = (.ok (some others), source') ∧
      resolved = ⟨token.startsSection, name, token.beats⟩ :: others := by
  unfold resolveTokens at h
  split at h
  · cases h
  · cases h
  · rename_i name middle hname
    cases hrest : resolveTokens palettes (done ++ [name]) rest middle with
    | mk result last =>
      rw [hrest] at h
      simp only [Prod.mk.injEq] at h
      obtain ⟨hresult, rfl⟩ := h
      obtain ⟨others?, rfl, hothers⟩ := Outcome.map_eq_ok_iff.1 hresult
      obtain ⟨others, rfl, rfl⟩ := Option.map_eq_some_iff.1 hothers
      exact ⟨name, middle, others, hname, hrest, rfl⟩

/-- Resolved tokens keep the marks and the lengths, and have names that the references stand for
among the names before them and their own. -/
theorem resolveTokens_sound {tokens : List ChordToken} {resolved : List ResolvedToken}
    (h : resolveTokens palettes done tokens source = (.ok (some resolved), source')) :
    List.Forall₂ (fun token r => r.startsSection = token.startsSection ∧ r.beats = token.beats)
        tokens resolved ∧
      ∀ (k : Nat) token r, tokens[k]? = some token → resolved[k]? = some r →
        Resolves Eq palettes (done ++ resolved.map (·.name)) (done.length + k) token.reference
          r.name := by
  induction tokens generalizing done source resolved with
  | nil =>
    cases h
    exact ⟨.nil, fun _ _ _ htoken => by cases htoken⟩
  | cons token rest ih =>
    obtain ⟨name, middle, others, hname, hrest, rfl⟩ := resolveTokens_cons_inv h
    obtain ⟨haligned, hresolves⟩ := ih hrest
    refine ⟨.cons ⟨rfl, rfl⟩ haligned, fun k t r ht hr => ?_⟩
    cases k with
    | zero =>
      cases ht
      cases hr
      refine resolveReference_sound (fun hothers => ?_) hname
      rw [List.map_eq_nil_iff.1 hothers] at haligned
      cases haligned
      rfl
    | succ k =>
      have := hresolves k t r ht hr
      rwa [List.append_assoc, List.length_append, List.length_singleton, Nat.add_assoc,
        Nat.add_comm 1] at this

/-- What the passes give is what one of them gives. -/
theorem resolvePasses_inv {pattern : Text} {tokens : List ChordToken} {restarts left : Nat}
    {resolved : List ResolvedToken}
    (h : (resolvePasses palettes pattern tokens restarts left source).result = .ok resolved) :
    ∃ start stop : σ, resolveTokens palettes [] tokens start = (.ok (some resolved), stop) := by
  fun_induction resolvePasses palettes pattern tokens restarts left source with
  | case1 => cases h
  | case2 restarts left source resolved' next hpass =>
    cases h
    exact ⟨source, next, hpass⟩
  | case3 => cases h
  | case4 restarts source left next _ ih => exact ih h

/-- A resolved pattern keeps the marks and the lengths of its tokens, and every name is one that the
reference stands for. -/
theorem exists_resolves_of_resolve {p : ChordPattern} {resolved : List ResolvedToken}
    (h : (resolve palettes p source).result = .ok resolved) :
    ∃ tokens, p.tokens = .ok tokens ∧
      List.Forall₂ (fun token r => r.startsSection = token.startsSection ∧ r.beats = token.beats)
        tokens resolved ∧
      ∀ (position : Nat) token r, tokens[position]? = some token → resolved[position]? = some r →
        Resolves Eq palettes (resolved.map (·.name)) position token.reference r.name := by
  unfold resolve at h
  split at h
  · cases h
  · rename_i tokens htokens
    obtain ⟨start, stop, hpass⟩ := resolvePasses_inv h
    obtain ⟨haligned, hresolves⟩ := resolveTokens_sound hpass
    refine ⟨tokens, htokens, haligned, fun position token r ht hr => ?_⟩
    have := hresolves position token r ht hr
    rwa [List.nil_append, List.length_nil, Nat.zero_add] at this

end

/-! ## The text of a resolved pattern -/

/-- The text is cut into the resolved tokens and read again. -/
theorem mapM_read_splitOn_write {resolved : List ResolvedToken} (hne : resolved ≠ [])
    (hbeats : ∀ r ∈ resolved, r.beats.Readable) :
    ((write resolved).splitOn ',').mapM ChordToken.read =
      .ok (resolved.map ResolvedToken.reread) := by
  have hpieces : (write resolved).splitOn ',' = resolved.map ResolvedToken.write := by
    refine List.splitOn_intercalate ',' (fun piece hpiece => ?_) (by simpa using hne)
    obtain ⟨r, hr, rfl⟩ := List.mem_map.1 hpiece
    exact ResolvedToken.comma_not_mem_write (hbeats r hr)
  rw [hpieces, Outcome.mapM_eq_ok_iff, List.forall₂_map_left_iff, List.forall₂_map_right_iff]
  exact List.forall₂_same.2 fun r hr => ResolvedToken.read_write (hbeats r hr)

/-- The names that are read are the resolved ones but for blanks. -/
theorem exists_getElem?_nameRead {resolved : List ResolvedToken} {index : Nat} {other : ChordName}
    (h : (resolved.map (·.name))[index]? = some other) :
    ∃ read, (resolved.map ResolvedToken.nameRead)[index]? = some read ∧
      other.SameButBlanks read := by
  rw [List.getElem?_map, Option.map_eq_some_iff] at h
  obtain ⟨r, hr, rfl⟩ := h
  exact ⟨r.nameRead, by rw [List.getElem?_map, hr]; rfl, r.sameButBlanks_nameRead⟩

/-- A name is kept from the others also as they are read. -/
theorem KeptFrom.nameRead {resolved : List ResolvedToken} {position : Nat} {exclusion : Option Text}
    {r : ResolvedToken} (h : KeptFrom (resolved.map (·.name)) position exclusion r.name) :
    KeptFrom (resolved.map ResolvedToken.nameRead) position exclusion r.nameRead := by
  -- what is read at an index differs from the name if what was resolved there does
  have hread {index : Nat} {read : ChordName}
      (hat : (resolved.map ResolvedToken.nameRead)[index]? = some read)
      (hkept : ∀ other, (resolved.map (·.name))[index]? = some other →
        r.name.sameHarmony other = false) : r.nameRead.sameHarmony read = false := by
    rw [List.getElem?_map, Option.map_eq_some_iff] at hat
    obtain ⟨s, hs, rfl⟩ := hat
    rw [← r.sameButBlanks_nameRead.sameHarmony_eq s.sameButBlanks_nameRead]
    exact hkept s.name (by rw [List.getElem?_map, hs]; rfl)
  refine ⟨fun read hpos hat => hread hat fun other => h.previous other hpos,
    fun read hpos hlast hat => hread hat fun other => h.first other hpos ?_,
    fun digits hdigits => ?_⟩
  · simpa using hlast
  · obtain ⟨index, other, hindex, hlt, hother, hkept⟩ := h.excluded digits hdigits
    obtain ⟨read, hat, -⟩ := exists_getElem?_nameRead hother
    refine ⟨index, read, hindex, hlt, hat, hread hat fun other' hother' => ?_⟩
    rwa [← Option.some_inj.1 (hother.symm.trans hother')]

/-- A name that the reference of a token stands for is read as one that it stands for but for
blanks. A literal has none in front. -/
theorem Resolves.nameRead {palettes : List Palette} {resolved : List ResolvedToken} {position : Nat}
    {token : ChordToken} {r : ResolvedToken} (hcut : token.Cut)
    (hmark : r.startsSection = token.startsSection)
    (h : Resolves Eq palettes (resolved.map (·.name)) position token.reference r.name) :
    Resolves ChordName.SameButBlanks palettes (resolved.map ResolvedToken.nameRead) position
      token.reference r.nameRead := by
  have hsame := r.sameButBlanks_nameRead
  obtain ⟨mark, reference, beats⟩ := token
  cases h with
  | @literal c rest _ hletter hname =>
    refine .literal hletter ?_
    show r.reread.reference = c :: rest
    rw [ResolvedToken.reread, hname]
    cases hunmarked : r.startsSection with
    | true => rfl
    | false => exact Text.dropWhile_eq_self (hcut.reference (hmark.symm.trans hunmarked))
  | back hnumeral hindex hlt hearlier heq =>
    obtain ⟨read, hread, hblanks⟩ := exists_getElem?_nameRead hearlier
    exact .back hnumeral hindex hlt hread (hblanks.symm.trans (heq ▸ hsame))
  | draw hletter hpalette hindex hat hmem heq hkept =>
    exact .draw hletter hpalette hindex hat hmem (heq ▸ hsame) hkept.nameRead

/-- What is read from the text of a resolved pattern is sound for the tokens of the pattern,
whatever was drawn. -/
theorem resolve_sound {σ : Type} [Source σ] {palettes : List Palette} {p : ChordPattern}
    {source : σ} {resolved : List ResolvedToken}
    (h : (resolve palettes p source).result = .ok resolved) :
    ∃ tokens reads names, p.tokens = .ok tokens ∧
      ((write resolved).splitOn ',').mapM ChordToken.read = .ok reads ∧
      Sound palettes tokens reads names := by
  obtain ⟨tokens, htokens, haligned, hresolves⟩ := exists_resolves_of_resolve h
  have hcut : ∀ {token}, token ∈ tokens → token.Cut := ChordPattern.cut_of_tokens htokens
  have hbeats : ∀ r ∈ resolved, r.beats.Readable := by
    intro r hr
    obtain ⟨token, htoken, -, hb⟩ := Outcome.exists_rel_of_mem haligned hr
    rw [hb]
    exact (hcut htoken).beats
  have hne : resolved ≠ [] := by
    rintro rfl
    exact ChordPattern.tokens_ne_nil htokens (List.forall₂_nil_right_iff.1 haligned)
  refine ⟨tokens, resolved.map ResolvedToken.reread, resolved.map ResolvedToken.nameRead, htokens,
    mapM_read_splitOn_write hne hbeats, List.forall₂_map_right_iff.2 haligned, ?_, ?_⟩
  · rw [List.map_map, List.map_map]
    rfl
  · intro position token name htoken hname
    rw [List.getElem?_map, Option.map_eq_some_iff] at hname
    obtain ⟨r, hr, rfl⟩ := hname
    exact (hresolves position token r htoken hr).nameRead (hcut (List.mem_of_getElem? htoken))
      (Outcome.rel_of_getElem? haligned htoken hr).1

/-- A palette with a padded name. -/
def padded : Palette := ⟨[⟨['C'], by decide⟩, ⟨[' ', 'F'], by decide⟩, ⟨['G'], by decide⟩], by simp⟩

/-- A padded name that is drawn under a section mark, one that refers to it without a mark, and a
draw in the last place that is kept from both and from the first chord. -/
theorem resolve_sound_padded :
    let text := "C/1,+ F/1, F/1,G/2".toList
    ∃ tokens reads names,
      (⟨"C/1,+0/1,$1/1,0!1/2".toList, none, none, by decide⟩ : ChordPattern).tokens = .ok tokens ∧
      (text.splitOn ',').mapM ChordToken.read = .ok reads ∧ Sound [padded] tokens reads names ∧
      names.map (·.text) = [['C'], [' ', 'F'], ['F'], ['G']] := by
  intro text
  have hresolve : (resolve [padded] ⟨"C/1,+0/1,$1/1,0!1/2".toList, none, none, by decide⟩
      [0, 1, 1, 0, 2]).result = .ok [⟨false, ⟨['C'], by decide⟩, ⟨['1'], 1⟩⟩,
        ⟨true, ⟨[' ', 'F'], by decide⟩, ⟨['1'], 1⟩⟩, ⟨false, ⟨[' ', 'F'], by decide⟩, ⟨['1'], 1⟩⟩,
        ⟨false, ⟨['G'], by decide⟩, ⟨['2'], 2⟩⟩] := by decide +kernel
  obtain ⟨tokens, reads, names, htokens, hreads, hsound⟩ := resolve_sound hresolve
  have hread : (text.splitOn ',').mapM ChordToken.read = .ok [⟨false, ['C'], ⟨['1'], 1⟩⟩,
      ⟨true, [' ', 'F'], ⟨['1'], 1⟩⟩, ⟨false, ['F'], ⟨['1'], 1⟩⟩, ⟨false, ['G'], ⟨['2'], 2⟩⟩] := by
    decide +kernel
  refine ⟨tokens, reads, names, htokens, hreads, hsound, ?_⟩
  rw [← hsound.named, Except.ok.inj (hreads.symm.trans hread)]
  rfl

/-- A name that is drawn is not always read back as a name of its palette, and a backreference not
always as the name that it refers to: the blanks in front are kept under a section mark, and lost
otherwise. -/
theorem resolve_read_apart :
    (resolve [padded] ⟨"G/1,0/1".toList, none, none, by decide⟩ [1]).result.map write =
        .ok "G/1, F/1".toList ∧
      ("G/1, F/1".toList.splitOn ',').mapM ChordToken.read =
        .ok [⟨false, ['G'], ⟨['1'], 1⟩⟩, ⟨false, ['F'], ⟨['1'], 1⟩⟩] ∧
      (∀ name ∈ padded.names, name.text ≠ ['F']) ∧
      (resolve [padded] ⟨"0/1,+$0/1".toList, none, none, by decide⟩ [1]).result.map write =
        .ok " F/1,+ F/1".toList ∧
      (" F/1,+ F/1".toList.splitOn ',').mapM ChordToken.read =
        .ok [⟨false, ['F'], ⟨['1'], 1⟩⟩, ⟨true, [' ', 'F'], ⟨['1'], 1⟩⟩] := by
  decide +kernel

end Songsmith.Resolution
