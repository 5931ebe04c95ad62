import Songsmith.Random.Source

/-!
# The seeded source

The Mersenne twister of 624 words of 32 bits, seeded by an integer: the words of its absolute value,
the least significant first, are mixed into the initial state. A number below `n` is drawn as many
leading bits of an output as `n` has, again and again until they are below `n`.
-/

namespace Songsmith

/-- The state of the generator: its words and the position of the next one to be used. -/
structure Twister where
  words : Array UInt32
  position : Nat

namespace Twister

/-- The number of words of the state. -/
def size : Nat := 624

/-- The words of a natural number, the least significant first; zero has one. -/
def keyWords (n : Nat) : List UInt32 :=
  if n < UInt32.size then [n.toUInt32] else n.toUInt32 :: keyWords (n / UInt32.size)
termination_by n
decreasing_by exact Nat.div_lt_self (by unfold UInt32.size at *; omega) (by decide)

/-- The word at a position. -/
def word (words : Array UInt32) (i : Nat) : UInt32 := words.getD i 0

/-- The mixture of a word that is carried into the next one. -/
def carry (w : UInt32) : UInt32 := w ^^^ (w >>> 30)

/-- The state that every seed starts from: each word is computed from the one before. -/
def initialWords : Array UInt32 :=
  (List.range (size - 1)).foldl
    (fun words i => words.push (1812433253 * carry (word words i) + (i + 1).toUInt32))
    #[19650218]

/-- The position after `i`. The first word is never mixed itself, and takes the value of the last
one whenever the positions start again. -/
def advance (words : Array UInt32) (i : Nat) : Array UInt32 × Nat :=
  if i + 1 < size then (words, i + 1)
  else (words.setIfInBounds 0 (word words (size - 1)), 1)

/-- Mixes `steps` words of the key into the state, from position `i` on; `rest` is what is left of
the key in this round, and `j` the position of its first word. -/
def mixKey (key : List UInt32) :
    Nat → List UInt32 → Nat → Array UInt32 → Nat → Array UInt32 × Nat
  | 0, _, _, words, i => (words, i)
  | steps + 1, rest, j, words, i =>
    let (k, rest, j) : UInt32 × List UInt32 × Nat :=
      match rest with
      | k :: rest => (k, rest, j)
      | [] => (key.headD 0, key.tail, 0)
    let mixed := (word words i ^^^ carry (word words (i - 1)) * 1664525) + k + j.toUInt32
    let (words, i) := advance (words.setIfInBounds i mixed) i
    mixKey key steps rest (j + 1) words i

/-- Mixes the state with itself, `steps` words from position `i` on. -/
def mixSelf : Nat → Array UInt32 → Nat → Array UInt32
  | 0, words, _ => words
  | steps + 1, words, i =>
    let mixed := (word words i ^^^ carry (word words (i - 1)) * 1566083941) - i.toUInt32
    let (words, i) := advance (words.setIfInBounds i mixed) i
    mixSelf steps words i

/-- The generator of a seed. The sign of the seed does not count. -/
def ofSeed (seed : Int) : Twister :=
  let key := keyWords seed.natAbs
  let (words, i) := mixKey key (max size key.length) key 0 initialWords 1
  ⟨(mixSelf (size - 1) words i).setIfInBounds 0 0x80000000, size⟩

/-- The next state of all words. -/
def regenerate (words : Array UInt32) : Array UInt32 :=
  (List.range size).foldl
    (fun words i =>
      let y := (word words i &&& 0x80000000) ||| (word words ((i + 1) % size) &&& 0x7fffffff)
      let twist : UInt32 := if y &&& 1 = 1 then 0x9908b0df else 0
      words.setIfInBounds i (word words ((i + 397) % size) ^^^ (y >>> 1) ^^^ twist))
    words

/-- The output made of a word of the state. -/
def temper (w : UInt32) : UInt32 :=
  let w := w ^^^ (w >>> 11)
  let w := w ^^^ ((w <<< 7) &&& 0x9d2c5680)
  let w := w ^^^ ((w <<< 15) &&& 0xefc60000)
  w ^^^ (w >>> 18)

/-- The next output. -/
def next (t : Twister) : UInt32 × Twister :=
  let t := if t.position < size then t else ⟨regenerate t.words, 0⟩
  (temper (word t.words t.position), ⟨t.words, t.position + 1⟩)

/-- The next `k` bits: the leading bits of an output, above a whole output for every 32 bits
more. -/
def bits (k : Nat) (t : Twister) : Nat × Twister :=
  if k ≤ 32 then
    let (w, t) := t.next
    ((w >>> (32 - k).toUInt32).toNat, t)
  else
    let (low, t) := t.next
    let (high, t) := bits (k - 32) t
    (low.toNat + UInt32.size * high, t)
termination_by k

/-- How often the bits for one number are drawn at most. Each draw succeeds with a probability of
at least one half, so the limit is not met. -/
def drawLimit : Nat := 1000000

/-- Draws as many bits as `n` has until they are below `n`. -/
def drawBelow (n : Nat) (positive : 0 < n) : Nat → Twister → Fin n × Twister
  | 0, t => (⟨0, positive⟩, t)
  | limit + 1, t =>
    let (value, t) := t.bits (n.log2 + 1)
    if h : value < n then (⟨value, h⟩, t) else drawBelow n positive limit t

/-- Draws are made from the leading bits of the outputs. -/
instance : Source Twister where
  below t n positive := drawBelow n positive drawLimit t

end Twister

end Songsmith
