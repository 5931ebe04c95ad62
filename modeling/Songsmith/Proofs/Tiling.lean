import Songsmith.Cycle
import Mathlib.Data.List.Basic

/-!
# Items laid over a song

What `Cycle.lay` lays is described in two ways. As a whole, the occurrences tile the song
(`Cycle.tiles_lay`): each one starts where the one before ends, and the last one ends with the song.
One by one (`Cycle.getElem?_lay`), occurrence number `k` is that of item `k` modulo their number, it
starts at the tick at which the repetition of all items comes to it (`Cycle.Starts`), and it is
there as long as that tick is in the song. Both are read off a single pass over the items written
out often enough (`Cycle.clip`).
-/

namespace Songsmith

/-- The occurrences cover the ticks from `start` to `stop` in order, without gap and overlap, and
each of them lasts at least one tick. -/
inductive Tiles {α : Type} : (start stop : Nat) → List (Occurrence α) → Prop
  | nil {stop : Nat} : Tiles stop stop []
  | cons {o : Occurrence α} {os : List (Occurrence α)} {stop : Nat} :
      0 < o.ticks → Tiles (o.start + o.ticks) stop os → Tiles o.start stop (o :: os)

namespace Tiles

variable {α : Type} {start stop : Nat} {os : List (Occurrence α)}

/-- A tiling does not end before it starts. -/
theorem le (h : Tiles start stop os) : start ≤ stop := by
  induction h with
  | nil => exact Nat.le_refl _
  | cons _ _ ih => omega

/-- No occurrence reaches beyond the ends of the tiling. -/
theorem bounds (h : Tiles start stop os) {o : Occurrence α} (ho : o ∈ os) :
    start ≤ o.start ∧ 0 < o.ticks ∧ o.start + o.ticks ≤ stop := by
  induction h with
  | nil => cases ho
  | cons hpos htail ih =>
    rcases List.mem_cons.1 ho with rfl | ho
    · exact ⟨Nat.le_refl _, hpos, htail.le⟩
    · have := ih ho
      omega

/-- The occurrences last as long as the ticks they tile. -/
theorem total_eq (h : Tiles start stop os) :
    start + Cycle.total Occurrence.ticks os = stop := by
  induction h with
  | nil => rfl
  | cons _ _ ih =>
    rw [← ih]
    exact Nat.add_assoc .. |>.symm

/-- What a column of occurrences says at a tick is said by the occurrence that covers it. -/
theorem getElem?_flatMap_replicate {β : Type} {f : Occurrence α → β} {o : Occurrence α} {i : Nat}
    (h : Tiles start stop os) (ho : o ∈ os) (hlo : o.start ≤ start + i)
    (hhi : start + i < o.start + o.ticks) :
    (os.flatMap fun o => List.replicate o.ticks (f o))[i]? = some (f o) := by
  induction h generalizing i with
  | nil => cases ho
  | @cons o' os stop hpos htail ih =>
    rw [List.flatMap_cons]
    rcases List.mem_cons.1 ho with rfl | ho
    · rw [List.getElem?_append_left (by simp; omega), List.getElem?_replicate_of_lt (by omega)]
    · have := htail.bounds ho
      rw [List.getElem?_append_right (by simp; omega), List.length_replicate]
      exact ih ho (by omega) (by omega)

/-- The first occurrence starts where the tiling starts. -/
theorem start_eq (h : Tiles start stop os) {o : Occurrence α} (hfirst : os[0]? = some o) :
    o.start = start := by
  cases h with
  | nil => cases hfirst
  | cons => cases hfirst; rfl

/-- Every other occurrence starts later. -/
theorem start_lt (h : Tiles start stop os) {k : Nat} {o : Occurrence α}
    (hk : os[k + 1]? = some o) : start < o.start := by
  cases h with
  | nil => cases hk
  | cons hpos htail =>
    have := htail.bounds (List.mem_of_getElem? hk)
    omega

/-- An occurrence ends before every later one starts. -/
theorem end_le (h : Tiles start stop os) {j k : Nat} {o o' : Occurrence α}
    (hj : os[j]? = some o) (hk : os[k]? = some o') (hjk : j < k) :
    o.start + o.ticks ≤ o'.start := by
  induction h generalizing j k with
  | nil => cases hj
  | cons hpos htail ih =>
    obtain ⟨k, rfl⟩ := Nat.exists_eq_add_of_lt (Nat.zero_lt_of_lt hjk)
    rw [Nat.zero_add, List.getElem?_cons_succ] at hk
    cases j with
    | zero =>
      cases hj
      exact (htail.bounds (List.mem_of_getElem? hk)).1
    | succ j => exact ih hj hk (by omega)

/-- An occurrence ends where the next one starts. -/
theorem end_eq (h : Tiles start stop os) {k : Nat} {o o' : Occurrence α}
    (hk : os[k]? = some o) (hnext : os[k + 1]? = some o') : o.start + o.ticks = o'.start := by
  induction h generalizing k with
  | nil => cases hk
  | cons hpos htail ih =>
    cases k with
    | zero =>
      cases hk
      exact (htail.start_eq hnext).symm
    | succ k => exact ih hk hnext

/-- The last occurrence ends where the tiling ends. -/
theorem end_eq_stop (h : Tiles start stop os) {k : Nat} {o : Occurrence α}
    (hk : os[k]? = some o) (hlast : k + 1 = os.length) : o.start + o.ticks = stop := by
  induction h generalizing k with
  | nil => cases hk
  | @cons o' os stop _ htail ih =>
    cases k with
    | zero =>
      cases hk
      obtain rfl : os = [] := List.length_eq_zero_iff.1 (Nat.succ.inj hlast).symm
      exact htail.total_eq
    | succ k => exact ih hk (Nat.succ.inj hlast)

/-- Every occurrence starts before the later ones. -/
theorem pairwise_start (h : Tiles start stop os) :
    os.Pairwise fun o o' => o.start < o'.start := by
  induction h with
  | nil => exact .nil
  | cons hpos htail ih =>
    refine List.pairwise_cons.2 ⟨fun o' ho' => ?_, ih⟩
    have := (htail.bounds ho').1
    omega

/-- There are no more occurrences than ticks. -/
theorem length_le (h : Tiles start stop os) : start + os.length ≤ stop := by
  induction h with
  | nil => exact Nat.le_refl _
  | cons hpos _ ih =>
    rw [List.length_cons]
    omega

/-- The occurrences that start no later than a tick are those up to the one that covers it. -/
theorem length_takeWhile_start (h : Tiles start stop os) {k tick : Nat} {o : Occurrence α}
    (hk : os[k]? = some o) (hlo : o.start ≤ tick) (hhi : tick < o.start + o.ticks) :
    (os.takeWhile fun o => decide (o.start ≤ tick)).length = k + 1 := by
  induction h generalizing k with
  | nil => cases hk
  | @cons o' os stop hpos htail ih =>
    cases k with
    | zero =>
      cases hk
      have hnone : os.takeWhile (fun o => decide (o.start ≤ tick)) = [] := by
        cases os with
        | nil => rfl
        | cons next os =>
          have hnext : next.start = o.start + o.ticks := htail.start_eq rfl
          rw [List.takeWhile_cons, if_neg (by simpa [hnext] using hhi)]
      rw [List.takeWhile_cons, if_pos (decide_eq_true hlo), hnone]
      rfl
    | succ k =>
      have hbounds := htail.bounds (List.mem_of_getElem? hk)
      have hle : o'.start ≤ tick := by omega
      rw [List.takeWhile_cons, if_pos (decide_eq_true hle), List.length_cons, ih hk]

/-- What the occurrences are of does not matter. -/
theorem map_item (h : Tiles start stop os) {β : Type} (f : α → β) :
    Tiles start stop (os.map fun o => ⟨o.start, f o.item, o.ticks⟩) := by
  induction h with
  | nil => exact .nil
  | @cons o _ _ hpos _ ih => exact .cons (o := ⟨o.start, f o.item, o.ticks⟩) hpos ih

/-- Every tick of the tiling is covered by an occurrence. -/
theorem exists_covering (h : Tiles start stop os) {tick : Nat} (hlo : start ≤ tick)
    (hhi : tick < stop) : ∃ o ∈ os, o.start ≤ tick ∧ tick < o.start + o.ticks := by
  induction h with
  | nil => omega
  | @cons o os stop _ _ ih =>
    by_cases hin : tick < o.start + o.ticks
    · exact ⟨o, List.mem_cons_self, hlo, hin⟩
    · obtain ⟨o', ho', hcover⟩ := ih (by omega) hhi
      exact ⟨o', List.mem_cons_of_mem _ ho', hcover⟩

end Tiles

namespace Cycle

variable {α : Type} {length : α → Nat} {items : List α} {ticks : Nat}

/-- When the items are repeated from tick zero on, occurrence number `k` starts at the given tick.
The repetition ends at an item without a length. -/
inductive Starts (length? : α → Option Nat) (items : List α) : (k start : Nat) → Prop
  | zero : Starts length? items 0 0
  | succ {k start n : Nat} {x : α} : Starts length? items k start →
      items[k % items.length]? = some x → length? x = some n →
      Starts length? items (k + 1) (start + n)

namespace Starts

variable {length? : α → Option Nat} {k start : Nat}

/-- The occurrence before one that starts, and its length. -/
theorem pred (h : Starts length? items (k + 1) start) :
    ∃ before n x, Starts length? items k before ∧ items[k % items.length]? = some x ∧
      length? x = some n ∧ start = before + n := by
  cases h with
  | succ hk hx hn => exact ⟨_, _, _, hk, hx, hn, rfl⟩

/-- An occurrence starts at one tick only. -/
theorem unique (h : Starts length? items k start) {start' : Nat}
    (h' : Starts length? items k start') : start = start' := by
  induction h generalizing start' with
  | zero => cases h'; rfl
  | succ _ hx hn ih =>
    obtain ⟨before, n, x, hk, hx', hn', rfl⟩ := h'.pred
    rw [hx] at hx'
    cases hx'
    rw [hn] at hn'
    cases hn'
    rw [ih hk]

/-- The occurrences before one that starts have started no later. -/
theorem of_le (h : Starts length? items k start) {j : Nat} (hj : j ≤ k) :
    ∃ earlier, Starts length? items j earlier ∧ earlier ≤ start := by
  induction h with
  | zero =>
    obtain rfl : j = 0 := by omega
    exact ⟨0, .zero, Nat.le_refl _⟩
  | @succ k start n x hk hx hn ih =>
    by_cases hjk : j ≤ k
    · obtain ⟨earlier, hstart, hle⟩ := ih hjk
      exact ⟨earlier, hstart, by omega⟩
    · obtain rfl : j = k + 1 := by omega
      exact ⟨_, .succ hk hx hn, Nat.le_refl _⟩

/-- Where every length is positive, a later occurrence starts later. -/
theorem lt (pos : ∀ x n, length? x = some n → 0 < n) {j earlier : Nat}
    (h : Starts length? items k start) (hj : Starts length? items j earlier) (hlt : j < k) :
    earlier < start := by
  obtain ⟨next, hnext, hle⟩ := h.of_le hlt
  obtain ⟨before, n, x, hbefore, -, hn, rfl⟩ := hnext.pred
  have := pos x n hn
  have := hbefore.unique hj
  omega

end Starts

/-- Occurrences that start alike in two lists: as long as each step of the one is a step of the
other, both come to occurrence `k` at the same tick. -/
theorem Starts.transport {β : Type} {length? : α → Option Nat} {length?' : β → Option Nat}
    {items' : List β} {k start : Nat} (h : Starts length? items k start)
    (step : ∀ j < k, ∀ x, items[j % items.length]? = some x →
      ∃ y, items'[j % items'.length]? = some y ∧ length?' y = length? x) :
    Starts length?' items' k start := by
  induction h with
  | zero => exact .zero
  | @succ k start n x _ hx hn ih =>
    obtain ⟨y, hy, hlength⟩ := step k (Nat.lt_succ_self k) x hx
    exact .succ (ih fun j hj => step j (Nat.lt_succ_of_lt hj)) hy (hlength.trans hn)

/-- Occurrence number `k` of the repetition covers a tick. -/
def Covers (length? : α → Option Nat) (items : List α) (k tick : Nat) : Prop :=
  ∃ start stop, Starts length? items k start ∧ Starts length? items (k + 1) stop ∧
    start ≤ tick ∧ tick < stop

/-- An occurrence that starts no later than a tick does not come after the one that covers it. -/
theorem Covers.le_of_starts {length? : α → Option Nat} {j k start tick : Nat}
    (h : Covers length? items k tick) (hj : Starts length? items j start) (hle : start ≤ tick) :
    j ≤ k := by
  obtain ⟨_, stop, -, hstop, -, hlt⟩ := h
  by_contra hjk
  obtain ⟨stop', hstop', hle'⟩ := hj.of_le (Nat.lt_of_not_le hjk)
  have := hstop.unique hstop'
  omega

/-- A tick is covered by one occurrence only. -/
theorem Covers.unique {length? : α → Option Nat} {j k tick : Nat}
    (h : Covers length? items k tick) (h' : Covers length? items j tick) : j = k := by
  obtain ⟨start, -, hstart, -, hle, -⟩ := id h
  obtain ⟨start', -, hstart', -, hle', -⟩ := id h'
  exact Nat.le_antisymm (h.le_of_starts hstart' hle') (h'.le_of_starts hstart hle)

/-! ## One pass over a list -/

/-- The occurrences of a list of items laid once from `start` on, cut at the end. -/
def clip (length : α → Nat) (ticks start : Nat) (xs : List α) : List (Occurrence α) :=
  (positions length start xs).filterMap fun (start, x) => occurrence? length ticks start x

@[simp] theorem total_nil : total length [] = 0 := rfl

@[simp] theorem total_cons (x : α) (xs : List α) :
    total length (x :: xs) = length x + total length xs := rfl

/-- The length of two lists is the sum of their lengths. -/
theorem total_append (xs ys : List α) :
    total length (xs ++ ys) = total length xs + total length ys := by
  induction xs with
  | nil => simp
  | cons x xs ih => simp only [List.cons_append, total_cons, ih, Nat.add_assoc]

/-- Every repetition of a list is as long as the list. -/
theorem total_flatten_replicate (n : Nat) :
    total length (List.replicate n items).flatten = n * total length items := by
  induction n with
  | zero => simp
  | succ n ih =>
    rw [List.replicate_succ, List.flatten_cons, total_append, ih, Nat.succ_mul, Nat.add_comm]

/-- Every repetition of an item is as long as the item. -/
theorem total_replicate (n : Nat) (x : α) : total length (List.replicate n x) = n * length x := by
  induction n with
  | zero => simp
  | succ n ih => rw [List.replicate_succ, total_cons, ih, Nat.succ_mul, Nat.add_comm]

/-- Items of at least one tick each are at least as long as there are many. -/
theorem length_le_total (pos : ∀ x, 0 < length x) (xs : List α) :
    xs.length ≤ total length xs := by
  induction xs with
  | nil => simp
  | cons x xs ih => have := pos x; simp only [List.length_cons, total_cons]; omega

/-- A list of items is not without length. -/
theorem total_pos (pos : ∀ x, 0 < length x) {xs : List α} (hne : xs ≠ []) :
    0 < total length xs :=
  Nat.lt_of_lt_of_le (List.length_pos_iff.2 hne) (length_le_total pos xs)

/-- Around every tick that the items last there is one of them. -/
theorem exists_around {xs : List α} {tick : Nat} (h : tick < total length xs) :
    ∃ pre x post, xs = pre ++ x :: post ∧ total length pre ≤ tick ∧
      tick < total length pre + length x := by
  induction xs generalizing tick with
  | nil => cases h
  | cons x xs ih =>
    by_cases hx : tick < length x
    · exact ⟨[], x, xs, rfl, Nat.zero_le _, by simpa using hx⟩
    · rw [total_cons] at h
      have hrest : tick - length x < total length xs := by omega
      obtain ⟨pre, y, post, rfl, hlo, hhi⟩ := ih hrest
      exact ⟨x :: pre, y, post, rfl, by rw [total_cons]; omega, by rw [total_cons]; omega⟩

section
variable {β : Type} {f : α → List β}

/-- A column has the length of its items together. -/
theorem length_flatMap (hf : ∀ x, (f x).length = length x) (xs : List α) :
    (xs.flatMap f).length = total length xs := by
  induction xs with
  | nil => rfl
  | cons x xs ih => simp [ih, hf]

/-- What a column of items says at a tick is said by the item around it. -/
theorem getElem?_flatMap_around (hf : ∀ x, (f x).length = length x) {pre post : List α} {x : α}
    {tick : Nat} (hlo : total length pre ≤ tick) (hhi : tick < total length pre + length x) :
    ((pre ++ x :: post).flatMap f)[tick]? = (f x)[tick - total length pre]? := by
  have hx := hf x
  rw [List.flatMap_append, List.flatMap_cons,
    List.getElem?_append_right (by rw [length_flatMap hf]; exact hlo), length_flatMap hf,
    List.getElem?_append_left (by omega)]

end

/-- The second of two lists stands behind the first one. -/
theorem positions_append (start : Nat) (xs ys : List α) :
    positions length start (xs ++ ys) =
      positions length start xs ++ positions length (start + total length xs) ys := by
  induction xs generalizing start with
  | nil => simp [positions]
  | cons x xs ih => simp only [List.cons_append, positions, ih, total_cons, Nat.add_assoc]

/-- All positions move with the first one. -/
theorem positions_add (shift start : Nat) (xs : List α) :
    positions length (shift + start) xs =
      (positions length start xs).map fun (start, x) => (shift + start, x) := by
  induction xs generalizing start with
  | nil => simp [positions]
  | cons x xs ih => simp [positions, ← ih, Nat.add_assoc]

/-- The positions of mapped items are those of the items. -/
theorem positions_map {β : Type} (length' : β → Nat) (f : α → β) (start : Nat) (xs : List α) :
    positions length' start (xs.map f) =
      (positions (length' ∘ f) start xs).map fun (start, x) => (start, f x) := by
  induction xs generalizing start with
  | nil => rfl
  | cons x xs ih => rw [List.map_cons, positions, ih]; rfl

/-- The second of two lists is cut where it stands behind the first one. -/
theorem clip_append (start : Nat) (xs ys : List α) :
    clip length ticks start (xs ++ ys) =
      clip length ticks start xs ++ clip length ticks (start + total length xs) ys := by
  rw [clip, positions_append, List.filterMap_append]
  rfl

/-- Nothing is laid behind the end. -/
theorem clip_of_le {start : Nat} (h : ticks ≤ start) (xs : List α) :
    clip length ticks start xs = [] := by
  induction xs generalizing start with
  | nil => rfl
  | cons x xs ih =>
    have hx : occurrence? length ticks start x = none := if_neg (by omega)
    have hle : ticks ≤ start + length x := by omega
    simpa [clip, positions, List.filterMap_cons, hx] using ih hle

/-- An item that starts before the end is cut there, and the others follow it. -/
theorem clip_cons {start : Nat} (h : start < ticks) (x : α) (xs : List α) :
    clip length ticks start (x :: xs) =
      ⟨start, x, min (length x) (ticks - start)⟩ :: clip length ticks (start + length x) xs := by
  simp [clip, positions, occurrence?, h]

/-- What is left of a list at an index is the item there, cut at the end, if it starts before that.
-/
theorem getElem?_clip {start k : Nat} {xs : List α} {o : Occurrence α} :
    (clip length ticks start xs)[k]? = some o ↔
      ∃ x, xs[k]? = some x ∧ start + total length (xs.take k) < ticks ∧
        o = ⟨start + total length (xs.take k), x,
          min (length x) (ticks - (start + total length (xs.take k)))⟩ := by
  induction xs generalizing start k with
  | nil => simp [clip, positions]
  | cons x xs ih =>
    by_cases h : start < ticks
    · rw [clip_cons h]
      cases k with
      | zero => simp [h, eq_comm]
      | succ k => simp [ih, Nat.add_assoc]
    · rw [clip_of_le (by omega)]
      constructor
      · intro ho
        simp at ho
      · rintro ⟨_, -, hlt, -⟩
        omega

/-- What is laid tiles the ticks that are left, if the items are long enough. -/
theorem tiles_clip (pos : ∀ x, 0 < length x) {start : Nat} {xs : List α} (hstart : start ≤ ticks)
    (hlong : ticks ≤ start + total length xs) :
    Tiles start ticks (clip length ticks start xs) := by
  induction xs generalizing start with
  | nil =>
    obtain rfl : start = ticks := by simp at hlong; omega
    exact .nil
  | cons x xs ih =>
    have hx := pos x
    rw [total_cons] at hlong
    by_cases h : start < ticks
    · rw [clip_cons h]
      refine .cons (o := ⟨start, x, min (length x) (ticks - start)⟩) (by simp; omega) ?_
      by_cases hfit : start + length x ≤ ticks
      · have hmin : min (length x) (ticks - start) = length x := by omega
        simpa only [hmin] using ih hfit (by omega)
      · have hmin : start + min (length x) (ticks - start) = ticks := by omega
        rw [clip_of_le (by omega)]
        simpa only [hmin] using Tiles.nil
    · obtain rfl : start = ticks := by omega
      rw [clip_of_le (Nat.le_refl _)]
      exact .nil

/-! ## Items laid once -/

/-- The items one after the other, the first one at `start`, none of them cut. -/
def layOnce (length : α → Nat) (start : Nat) (xs : List α) : List (Occurrence α) :=
  (positions length start xs).map fun (start, x) => ⟨start, x, length x⟩

@[simp] theorem layOnce_nil (start : Nat) : layOnce length start [] = [] := rfl

@[simp] theorem layOnce_cons (start : Nat) (x : α) (xs : List α) :
    layOnce length start (x :: xs) =
      ⟨start, x, length x⟩ :: layOnce length (start + length x) xs := rfl

/-- Every item is laid once. -/
theorem length_layOnce (start : Nat) (xs : List α) :
    (layOnce length start xs).length = xs.length := by
  induction xs generalizing start with
  | nil => rfl
  | cons x xs ih => rw [layOnce_cons, List.length_cons, List.length_cons, ih]

/-- What is said of items laid once can be said without their ticks. -/
theorem map_layOnce {β : Type} (length : α → Nat) (f : α → Nat → β) (start : Nat) (xs : List α) :
    ((layOnce length start xs).map fun o => f o.item o.ticks) = xs.map fun x => f x (length x) := by
  induction xs generalizing start with
  | nil => rfl
  | cons x xs ih => rw [layOnce_cons, List.map_cons, List.map_cons, ih]

/-- Items that are laid once tile their length. -/
theorem tiles_layOnce (start : Nat) {xs : List α} (pos : ∀ x ∈ xs, 0 < length x) :
    Tiles start (start + total length xs) (layOnce length start xs) := by
  induction xs generalizing start with
  | nil => exact .nil
  | cons x xs ih =>
    rw [total_cons, ← Nat.add_assoc]
    exact .cons (o := ⟨start, x, length x⟩) (pos x List.mem_cons_self)
      (ih _ fun y hy => pos y (List.mem_cons_of_mem _ hy))

/-- An item that is laid starts behind those before it and has its own length. -/
theorem exists_split_of_mem_layOnce {start : Nat} {xs : List α} {o : Occurrence α}
    (h : o ∈ layOnce length start xs) :
    ∃ pre post, xs = pre ++ o.item :: post ∧ o.start = start + total length pre ∧
      o.ticks = length o.item := by
  induction xs generalizing start with
  | nil => cases h
  | cons x xs ih =>
    rcases List.mem_cons.1 h with rfl | h
    · exact ⟨[], xs, rfl, rfl, rfl⟩
    · obtain ⟨pre, post, rfl, hstart, hticks⟩ := ih h
      exact ⟨x :: pre, post, rfl, by rw [hstart, total_cons, Nat.add_assoc], hticks⟩

/-- Only items of the list are laid. -/
theorem item_mem_of_mem_layOnce {start : Nat} {xs : List α} {o : Occurrence α}
    (h : o ∈ layOnce length start xs) : o.item ∈ xs := by
  obtain ⟨pre, post, hsplit, -, -⟩ := exists_split_of_mem_layOnce h
  rw [hsplit]
  exact List.mem_append_right pre List.mem_cons_self

/-! ## The repetition -/

/-- The rounds of a repetition are one pass over the items written out as often. -/
theorem lay_eq_clip (length : α → Nat) (items : List α) (ticks : Nat) :
    lay length items ticks =
      clip length ticks 0 (List.replicate (ticks / total length items + 1) items).flatten := by
  have round (k : Nat) : (positions length 0 items).filterMap (fun (start, x) =>
      occurrence? length ticks (k * total length items + start) x) =
        clip length ticks (k * total length items) items := by
    rw [clip, show k * total length items = k * total length items + 0 from rfl, positions_add,
      List.filterMap_map]
    rfl
  have rounds (n : Nat) : (List.range n).flatMap (fun k =>
      clip length ticks (k * total length items) items) =
        clip length ticks 0 (List.replicate n items).flatten := by
    induction n with
    | zero => rfl
    | succ n ih =>
      rw [List.range_succ, List.flatMap_append, ih, List.replicate_succ', List.flatten_append,
        clip_append, total_flatten_replicate]
      simp
  simp only [lay, round, rounds]

/-- Items that are replaced by others of the same lengths are laid at the same ticks. -/
theorem lay_map {β : Type} (length' : β → Nat) (f : α → β) (items : List α) (ticks : Nat) :
    lay length' (items.map f) ticks =
      (lay (length' ∘ f) items ticks).map fun o => ⟨o.start, f o.item, o.ticks⟩ := by
  have htotal : total length' (items.map f) = total (length' ∘ f) items := by
    rw [total, List.foldr_map]
    rfl
  have hoccurrence : ∀ start x, occurrence? length' ticks start (f x) =
      (occurrence? (length' ∘ f) ticks start x).map fun o => ⟨o.start, f o.item, o.ticks⟩ := by
    intro start x
    unfold occurrence?
    split <;> rfl
  simp only [lay, htotal, positions_map, List.filterMap_map, List.map_flatMap, List.map_filterMap]
  simp [Function.comp_def, hoccurrence]

/-- What stands at an index of a repeated list is found with the index modulo its length. -/
theorem getElem?_flatten_replicate {n k : Nat} (hk : k < n * items.length) :
    (List.replicate n items).flatten[k]? = items[k % items.length]? := by
  induction n generalizing k with
  | zero => omega
  | succ n ih =>
    rw [List.replicate_succ, List.flatten_cons]
    by_cases h : k < items.length
    · rw [List.getElem?_append_left h, Nat.mod_eq_of_lt h]
    · have hle : items.length ≤ k := by omega
      rw [Nat.succ_mul] at hk
      rw [List.getElem?_append_right hle, ih (by omega), ← Nat.mod_eq_sub_mod hle]

/-- The occurrences that fit into a number of rounds start where those before them end. -/
theorem starts_total {n k : Nat} (hk : k ≤ n * items.length) :
    Starts (some ∘ length) items k
      (total length ((List.replicate n items).flatten.take k)) := by
  induction k with
  | zero => exact .zero
  | succ k ih =>
    have hlt : k < (List.replicate n items).flatten.length := by simp; omega
    have hx : (List.replicate n items).flatten[k]? = items[k % items.length]? :=
      getElem?_flatten_replicate hk
    rw [List.getElem?_eq_getElem hlt] at hx
    rw [List.take_add_one, total_append, List.getElem?_eq_getElem hlt]
    exact .succ (ih (by omega)) hx.symm rfl

/-- The second round starts where the first one ends. -/
theorem starts_length : Starts (some ∘ length) items items.length (total length items) := by
  have h : Starts (some ∘ length) items items.length
      (total length ((List.replicate 1 items).flatten.take items.length)) :=
    starts_total (by omega)
  simpa using h

/-- As many rounds as are laid go past the end. -/
theorem lt_rounds (pos : ∀ x, 0 < length x) (nonempty : items ≠ []) (ticks : Nat) :
    ticks < (ticks / total length items + 1) * total length items := by
  exact (Nat.div_lt_iff_lt_mul (total_pos pos nonempty)).1 (Nat.lt_succ_self _)

/-- The occurrences of a repetition tile the song. -/
theorem tiles_lay (pos : ∀ x, 0 < length x) (nonempty : items ≠ []) (ticks : Nat) :
    Tiles 0 ticks (lay length items ticks) := by
  rw [lay_eq_clip]
  refine tiles_clip pos (Nat.zero_le _) ?_
  have := lt_rounds pos nonempty ticks
  rw [total_flatten_replicate]
  omega

/-- Nothing is cut where all items fit. -/
theorem clip_eq_layOnce (pos : ∀ x, 0 < length x) {start : Nat} {xs : List α}
    (hfit : start + total length xs ≤ ticks) :
    clip length ticks start xs = layOnce length start xs := by
  induction xs generalizing start with
  | nil => rfl
  | cons x xs ih =>
    have hx := pos x
    rw [total_cons] at hfit
    rw [clip_cons (by omega), layOnce_cons, ih (by omega), Nat.min_eq_left (by omega)]

/-- Items that fill the song exactly are laid once. -/
theorem lay_eq_layOnce (pos : ∀ x, 0 < length x) (nonempty : items ≠ [])
    (hfill : total length items = ticks) : lay length items ticks = layOnce length 0 items := by
  have hticks : 0 < ticks := hfill ▸ total_pos pos nonempty
  have hrounds : (List.replicate (ticks / total length items + 1) items).flatten =
      items ++ items := by
    rw [hfill, Nat.div_self hticks]
    simp [List.replicate_succ]
  rw [lay_eq_clip, hrounds, clip_append, clip_eq_layOnce pos (by omega), clip_of_le (by omega),
    List.append_nil]

/-- Occurrence number `k` is that of item `k` modulo their number; it starts where the repetition
comes to it, is there if that is in the song, and is cut at the end of the song. -/
theorem getElem?_lay (pos : ∀ x, 0 < length x) (nonempty : items ≠ []) {k : Nat}
    {o : Occurrence α} :
    (lay length items ticks)[k]? = some o ↔
      ∃ start x, Starts (some ∘ length) items k start ∧ items[k % items.length]? = some x ∧
        start < ticks ∧ o = ⟨start, x, min (length x) (ticks - start)⟩ := by
  have hrounds := lt_rounds pos nonempty ticks
  rw [lay_eq_clip, getElem?_clip]
  generalize ticks / total length items + 1 = n at hrounds ⊢
  constructor
  · rintro ⟨x, hx, hlt, rfl⟩
    have hk : k < n * items.length := by
      have := (List.getElem?_eq_some_iff.1 hx).1
      simpa using this
    rw [getElem?_flatten_replicate hk] at hx
    exact ⟨_, x, by simpa using starts_total (Nat.le_of_lt hk), hx, hlt, rfl⟩
  · rintro ⟨start, x, hstart, hx, hlt, rfl⟩
    have hk : k < n * items.length := by
      by_contra hge
      obtain ⟨earlier, hearlier, hle⟩ := hstart.of_le (Nat.le_of_not_lt hge)
      have hall := hearlier.unique (starts_total (Nat.le_refl _))
      rw [List.take_of_length_le (by simp), total_flatten_replicate] at hall
      omega
    have heq := hstart.unique (starts_total (Nat.le_of_lt hk))
    refine ⟨x, by rw [getElem?_flatten_replicate hk, hx], ?_, ?_⟩
    · rwa [Nat.zero_add, ← heq]
    · rw [Nat.zero_add, ← heq]

end Cycle

end Songsmith
