import RenderFarm.Number.Power

/-!
Random draws. A generator hands out 32-bit and 64-bit words; whole numbers in a range, doubles in a range
and samples without replacement are made from them. Every draw returns the generator to go on with, and
the order of draws is part of what a run does.
-/

namespace RenderFarm

/-- A source of random words. -/
class Generator (γ : Type) where
  next32 : γ → UInt32 × γ
  next64 : γ → UInt64 × γ

/-- The SplitMix64 generator: a counter and a mixing function. -/
structure SplitMix where
  state : UInt64
deriving DecidableEq, Repr

namespace SplitMix

/-- The next 64-bit word. -/
def next (g : SplitMix) : UInt64 × SplitMix :=
  let s := g.state + 0x9E3779B97F4A7C15
  let z := (s ^^^ (s >>> 30)) * 0xBF58476D1CE4E5B9
  let z := (z ^^^ (z >>> 27)) * 0x94D049BB133111EB
  (z ^^^ (z >>> 31), ⟨s⟩)

instance : Generator SplitMix where
  next32 g := ((g.next.1 >>> 32).toUInt32, g.next.2)
  next64 := next

end SplitMix

namespace Random

variable {γ : Type} [Generator γ]

/-- A 32-bit word as a natural number. -/
def word32 (g : γ) : Nat × γ :=
  let (w, g) := Generator.next32 g
  (w.toNat, g)

/-- A 64-bit word as a natural number. -/
def word64 (g : γ) : Nat × γ :=
  let (w, g) := Generator.next64 g
  (w.toNat, g)

/-- A number below `count` from words below `size`: the high half of a product, corrected by a second word
where the low half shows that the first one may fall short. A count of `size` takes the word itself. -/
def scaled (size : Nat) (word : γ → Nat × γ) (count : Nat) (g : γ) : Nat × γ :=
  let (w, g) := word g
  if count = size then (w, g)
  else
    let high := w * count / size
    let low := w * count % size
    if size - count < low then
      let (w, g) := word g
      (if size ≤ low + w * count / size then high + 1 else high, g)
    else (high, g)

/-- A whole number from `lo` to `hi`, both included, for `lo ≤ hi`. Bounds that fit in 32 bits use 32-bit
words. -/
def between (lo hi : Nat) (g : γ) : Nat × γ :=
  let (n, g) :=
    if hi < twoTo 32 then scaled (twoTo 32) word32 (hi - lo + 1) g
    else scaled (twoTo 64) word64 (hi - lo + 1) g
  (lo + n, g)

/-- A position in a list of the given length, for a length above zero. -/
def position (length : Nat) (g : γ) : Nat × γ :=
  between 0 (length - 1) g

/-- An element of a list; nothing is drawn from an empty one. -/
def choose {α : Type} (xs : List α) (g : γ) : Option α × γ :=
  if xs.isEmpty then (none, g)
  else
    let (i, g) := position xs.length g
    (xs[i]?, g)

/-- The spacing of doubles just above one. -/
def twoToMinus52 : Float :=
  Float.ofBits 0x3CB0000000000000

/-- A double from `lo` to `hi`. There is no draw when the distance of the bounds overflows. -/
def floatBetween? (lo hi : Float) (g : γ) : Option (Float × γ) :=
  let span := hi - lo
  if span.isFinite then
    let (w, g) := Generator.next64 g
    some (Float.ofNat (w >>> 12).toNat * twoToMinus52 * span + lo, g)
  else none

/-- Draws the positions of Floyd's method for the upper bounds `j, j + 1, …`, `left` of them: a position that
is already taken gives its place to the bound. -/
def floyd (taken : List Nat) (j : Nat) : Nat → γ → List Nat × γ
  | 0, g => (taken, g)
  | left + 1, g =>
    let (t, g) := between 0 j g
    floyd (taken.map (fun x => if x = t then j else x) ++ [t]) (j + 1) left g

/-- Exchanges two elements. -/
def exchange (xs : Array Nat) (i j : Nat) : Array Nat :=
  match xs[i]?, xs[j]? with
  | some a, some b => (xs.setIfInBounds i b).setIfInBounds j a
  | _, _ => xs

/-- Shuffles `left` elements from position `i` on into place. -/
def shuffleFront (xs : Array Nat) (i : Nat) : Nat → γ → Array Nat × γ
  | 0, g => (xs, g)
  | left + 1, g =>
    let (j, g) := between i (xs.size - 1) g
    shuffleFront (exchange xs i j) (i + 1) left g

/-- Whether a sample is drawn by shuffling the front of the whole list and not by Floyd's method: shuffling
is taken for samples that are large beside the list. -/
def shufflesInPlace (length amount : Nat) : Bool :=
  if amount < 163 then
    let a := Float32.ofNat amount
    decide (11 < amount) && decide (Float32.ofNat length < (10.0 + 1.6 * a) * a)
  else true

/-- Distinct positions in a list, `amount` of them, in the order drawn; `amount` is at most the length. -/
def sample (length amount : Nat) (g : γ) : List Nat × γ :=
  if shufflesInPlace length amount then
    let (xs, g) := shuffleFront (Array.range length) 0 amount g
    (xs.toList.take amount, g)
  else floyd [] (length - amount) amount g

end Random

end RenderFarm
