import RenderFarm.Number.Binary

/-!
The shortest decimal that reads back as a given double. The doubles nearest to a decimal form an interval
around each double; the result is the point of the coarsest decimal grid that lies in it, and of two such
points the nearer one.
-/

namespace RenderFarm

/-- A decimal number `digits · 10 ^ exponent`. -/
structure Decimal where
  digits : Nat
  exponent : Int
deriving DecidableEq, Repr

namespace Decimal

/-- The interval of numbers that round to a double, scaled to natural numbers: every number below is
multiplied by `scale`. -/
structure Interval where
  low : Nat
  value : Nat
  high : Nat
  scale : Nat
  /-- Whether the ends themselves round to the double. -/
  closed : Bool

/-- The interval of a non-zero double. Just above a power of two the lower neighbour is half as far away. -/
def Interval.ofBinary (b : Binary) : Interval :=
  let narrow := b.significand = twoTo 52 ∧ -1074 < b.exponent
  let value := 4 * b.significand
  let low := value - (if narrow then 1 else 2)
  let up := twoTo (b.exponent - 2).toNat
  { low := low * up
    value := value * up
    high := (value + 2) * up
    scale := twoTo (2 - b.exponent).toNat
    closed := b.significand % 2 == 0 }

/-- Whether `digits` grid steps of `step` lie in the interval, where the interval is multiplied by `factor`. -/
def Interval.holds (i : Interval) (step factor digits : Nat) : Bool :=
  let point := digits * step
  if i.closed then i.low * factor ≤ point && point ≤ i.high * factor
  else i.low * factor < point && point < i.high * factor

/-- The point of the grid of step `10 ^ k` that lies in the interval, nearest to its double. Of two equally
near points the even one is taken. -/
def Interval.gridPoint? (i : Interval) (k : Int) : Option Nat :=
  let step := i.scale * tenTo k.toNat
  let factor := tenTo (-k).toNat
  let value := i.value * factor
  let below := value / step
  let belowOk := i.holds step factor below && below != 0
  let aboveOk := i.holds step factor (below + 1)
  if belowOk && aboveOk then
    let toBelow := value - below * step
    let toAbove := (below + 1) * step - value
    if toBelow < toAbove then some below
    else if toAbove < toBelow then some (below + 1)
    else if below % 2 = 0 then some below else some (below + 1)
  else if belowOk then some below
  else if aboveOk then some (below + 1)
  else none

/-- Tries the grids from `10 ^ k` down, at most `fuel` of them. -/
def Interval.search (i : Interval) : Nat → Int → Decimal
  | 0, k => ⟨i.value * tenTo (-k).toNat / (i.scale * tenTo k.toNat), k⟩
  | fuel + 1, k =>
    match i.gridPoint? k with
    | some digits => ⟨digits, k⟩
    | none => i.search fuel (k - 1)

/-- The shortest decimal that reads back as the absolute value of a finite double. A double is below
`2 ^ (exponent + 53)`, and a grid finer than half its last binary place always has a point in the
interval, so twenty grids are enough. -/
def shortest (x : Float) : Decimal :=
  let b := Binary.ofFloat x
  if b.significand = 0 then ⟨0, 0⟩
  else (Interval.ofBinary b).search 20 ((b.exponent + 53) * 30103 / 100000 + 1)

end Decimal

end RenderFarm
