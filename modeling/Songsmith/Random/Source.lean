/-!
# Random sources

The generators ask one thing of randomness: a number below a bound. A type with such a draw is a
`Source`, and everything random in this library is a function of one, so that what is said about it
holds for every stream of draws. The state after a draw is handed on also when what is made of the
draw fails. A list of given draws is the simplest source.
-/

namespace Songsmith

/-- A state from which numbers below a bound can be drawn. -/
class Source (σ : Type) where
  /-- Draws a number below `n`. -/
  below : σ → (n : Nat) → 0 < n → Fin n × σ

namespace Source

variable {σ : Type} [Source σ] {α : Type}

/-- Draws an element of a list. -/
def pick (source : σ) (xs : List α) (nonempty : xs ≠ []) : α × σ :=
  let (i, source) := below source xs.length (List.length_pos_iff.mpr nonempty)
  (xs.get i, source)

/-- What is drawn is one of the elements. -/
theorem pick_mem (source : σ) (xs : List α) (nonempty : xs ≠ []) :
    (pick source xs nonempty).1 ∈ xs :=
  List.get_mem _ _

/-- Draws that are given: each is the next number of the list, taken modulo the bound. -/
instance : Source (List Nat) where
  below draws n positive := (⟨draws.headD 0 % n, Nat.mod_lt _ positive⟩, draws.tail)

end Source

end Songsmith
