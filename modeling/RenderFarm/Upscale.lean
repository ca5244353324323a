import RenderFarm.Image.Header
import RenderFarm.Number.Binary

/-!
The size of an enlarged image: as large as asked for within a budget of pixels, with both sides rounded down
to multiples of eight.
-/

namespace RenderFarm.Upscale

/-- The default budget, 2048 by 2048 pixels. -/
def defaultMaxPixels : Nat := 2048 * 2048

/-- Sides are multiples of this. -/
def sideStep : UInt32 := 8

/-- A side rounded down to a multiple of the step, and never below it. -/
def roundSide (x : Float) : UInt32 :=
  max (floorToUInt32 x / sideStep * sideStep) sideStep

/-- The size of an image enlarged by an amount. One that would exceed the budget is shrunk with its sides in
proportion; a budget of zero is no bound, and an amount that is not above zero leaves the size alone. -/
def fit (size : Image.Size) (amount : Float) (maxPixels : Nat) : Image.Size :=
  let amount := if amount > 0 then amount else 1
  let w := Float.ofNat size.width.toNat * amount
  let h := Float.ofNat size.height.toNat * amount
  let area := w * h
  let budget := Float.ofNat maxPixels
  if 0 < maxPixels ∧ area > budget then
    let shrink := Float.sqrt (budget / area)
    ⟨roundSide (w * shrink), roundSide (h * shrink)⟩
  else ⟨roundSide w, roundSide h⟩

end RenderFarm.Upscale
