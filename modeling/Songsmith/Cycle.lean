import Songsmith.Error

/-!
# Repeating items

Chords and notes are laid one after the other over the ticks of a song: the items of a list, each of
its own length, and the list again from its start until the song is full. The last occurrence is cut
at the end of the song (`Cycle.lay`). A list that is repeated a given number of times has to fit
into memory (`Cycle.repeated`), and how much fits is up to the machine (`Machine`).
-/

namespace Songsmith

/-- What a run has room for. It differs from machine to machine and, since the stack has been used
before, from call to call, so that nothing here depends on how much it is. -/
class Machine where
  /-- How many groups inside each other the stack has room for. -/
  groups : Nat
  /-- How many items of a repeated list the memory has room for. -/
  items : Nat
  items_pos : 0 < items

/-- An item with the tick it starts at and the ticks it lasts. -/
structure Occurrence (α : Type) where
  start : Nat
  item : α
  ticks : Nat

namespace Cycle

variable {α : Type}

/-- The items one after the other, each with the tick it starts at, the first one at `start`. -/
def positions (length : α → Nat) : (start : Nat) → List α → List (Nat × α)
  | _, [] => []
  | start, x :: xs => (start, x) :: positions length (start + length x) xs

/-- The occurrence of an item that starts before the end, cut there. -/
def occurrence? (length : α → Nat) (ticks : Nat) (start : Nat) (x : α) : Option (Occurrence α) :=
  if start < ticks then some ⟨start, x, min (length x) (ticks - start)⟩ else none

/-- The length of all items. -/
def total (length : α → Nat) (items : List α) : Nat :=
  items.foldr (fun x sum => length x + sum) 0

/-- The items laid cyclically over a number of ticks. As many rounds as may be needed are laid, and
what would start behind the end is left out. -/
def lay (length : α → Nat) (items : List α) (ticks : Nat) : List (Occurrence α) :=
  let round := total length items
  (List.range (ticks / round + 1)).flatMap fun k =>
    (positions length 0 items).filterMap fun (start, x) =>
      occurrence? length ticks (k * round + start) x

/-- The largest count that a list may be repeated by. -/
def countLimit : Nat := 0x7fffffffffffffff

/-- The list repeated `count` times. -/
def repeated [Machine] (count : Nat) (items : List α) : Except Error (List α) :=
  if countLimit < count then .error (.overflow .repeatCount)
  else if Machine.items < count * items.length then .error (.exhausted .memory)
  else .ok (List.replicate count items).flatten

end Cycle

end Songsmith
