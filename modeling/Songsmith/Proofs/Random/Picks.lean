import Songsmith.Random.Source

/-!
# Picking one element after the other

A computation that picks elements of one list is described by all that it picks, in order, and by
what it makes of them. The picks alone say where the source is behind them (`Source.Picks`), and a
source that counts has counted each of them (`Source.Picks.of_counted`).
-/

namespace Songsmith

/-- A source that counts the numbers drawn from it. -/
structure Counted (σ : Type) where
  source : σ
  draws : Nat

instance {σ : Type} [Source σ] : Source (Counted σ) where
  below counted n positive :=
    let (i, source) := Source.below counted.source n positive
    (i, ⟨source, counted.draws + 1⟩)

namespace Source

variable {σ : Type} [Source σ] {α : Type}

/-- These elements of a list are picked one after the other, with the source before and after. -/
inductive Picks (xs : List α) (nonempty : xs ≠ []) : σ → (picked : List α) → σ → Prop
  | nil {source : σ} : Picks xs nonempty source [] source
  | cons {source middle stop : σ} {x : α} {picked : List α} :
      pick source xs nonempty = (x, middle) → Picks xs nonempty middle picked stop →
      Picks xs nonempty source (x :: picked) stop

/-- What is picked from the images of elements is the image of what is picked from these. -/
theorem pick_map {β : Type} (f : α → β) (source : σ) (xs : List α) (nonempty : xs ≠ [])
    (nonempty' : xs.map f ≠ []) :
    pick source (xs.map f) nonempty' =
      (f (pick source xs nonempty).1, (pick source xs nonempty).2) := by
  have hlength : (xs.map f).length = xs.length := List.length_map f
  have hbelow : ∀ (n : Nat) (positive : 0 < n) (h : n = xs.length),
      below source n positive =
        ((below source xs.length (h ▸ positive)).1.cast h.symm,
          (below source xs.length (h ▸ positive)).2) := by
    rintro _ positive rfl
    rfl
  simp only [pick, hbelow _ (List.length_pos_iff.mpr nonempty') hlength]
  simp

namespace Picks

variable {xs : List α} {nonempty : xs ≠ []} {picked : List α}

/-- Only elements of the list are picked. -/
theorem mem {source stop : σ} (h : Picks xs nonempty source picked stop) :
    ∀ x ∈ picked, x ∈ xs := by
  induction h with
  | nil => nofun
  | @cons source _ _ x _ hpick _ ih =>
    refine List.forall_mem_cons.2 ⟨?_, ih⟩
    have hmem := pick_mem source xs nonempty
    rwa [hpick] at hmem

/-- Picks from where others have stopped are picks from their start. -/
theorem append {source middle stop : σ} {picked' : List α}
    (h : Picks xs nonempty source picked middle) (h' : Picks xs nonempty middle picked' stop) :
    Picks xs nonempty source (picked ++ picked') stop := by
  induction h with
  | nil => exact h'
  | cons hpick _ ih => exact .cons hpick (ih h')

/-- Picks can be parted anywhere. -/
theorem split {source stop : σ} {picked' : List α}
    (h : Picks xs nonempty source (picked ++ picked') stop) :
    ∃ middle, Picks xs nonempty source picked middle ∧ Picks xs nonempty middle picked' stop := by
  induction picked generalizing source with
  | nil => exact ⟨source, .nil, h⟩
  | cons x picked ih =>
    cases h with
    | cons hpick h =>
      obtain ⟨middle, hfirst, hrest⟩ := ih h
      exact ⟨middle, .cons hpick hfirst, hrest⟩

/-- A source that counts picks what the source in it picks, and counts the picks. -/
theorem of_counted {counted next : Counted σ} (h : Picks xs nonempty counted picked next) :
    Picks xs nonempty counted.source picked next.source ∧
      next.draws = counted.draws + picked.length := by
  induction h with
  | nil => exact ⟨.nil, rfl⟩
  | cons hpick _ ih =>
    obtain ⟨hrest, hdraws⟩ := ih
    cases hpick
    refine ⟨.cons rfl hrest, hdraws.trans ?_⟩
    rw [List.length_cons, Nat.add_right_comm]
    rfl

end Picks

end Source

end Songsmith
