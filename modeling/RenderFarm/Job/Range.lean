import RenderFarm.Number.Reading
import RenderFarm.Number.Binary
import RenderFarm.Json.Codec
import RenderFarm.Random

/-!
Numeric parameters that may be given as a range. A range stays one until a job is started and is then
settled by a draw; a range whose bounds do not differ needs no draw.
-/

namespace RenderFarm

/-- A range with both bounds included, or a single value when they are equal. -/
structure Range (α : Type) where
  min : α
  max : α
deriving DecidableEq, Repr

/-- Numbers that can be read from a directive and compared. -/
class Quantity (α : Type) where
  read? : List Char → Option α
  less : α → α → Bool
  atMost : α → α → Bool

instance : Quantity UInt32 where
  read? s := (Chars.readNat (twoTo 32 - 1) s).toOption.map UInt32.ofNat
  less a b := a < b
  atMost a b := a ≤ b

instance : Quantity Int64 where
  read? s := (Chars.readInt (twoTo 63 - 1) s).toOption.map Int64.ofInt
  less a b := a < b
  atMost a b := a ≤ b

instance : Quantity Float where
  read? := Chars.readFloat?
  less a b := a < b
  atMost a b := a ≤ b

/-- Reads a trimmed number. A text that names an infinity or NaN, or overflows to an infinity, is refused. -/
def readFinite? {α : Type} [Quantity α] (s : String) : Option α :=
  let cs := Chars.trim s.toList
  match Chars.readFloat? cs with
  | some x => if x.isFinite then Quantity.read? cs else none
  | none => Quantity.read? cs

namespace Range

variable {α : Type}

/-- The range of a single value. -/
def fixed (a : α) : Range α :=
  ⟨a, a⟩

/-- Whether no draw is needed: the lower bound is not below the upper one. -/
def isFixed [Quantity α] (r : Range α) : Bool :=
  !Quantity.less r.min r.max

/-- Reads a single number or two numbers with a dash between them; reversed bounds are exchanged. -/
def read? [Quantity α] (s : String) : Option (Range α) :=
  match Chars.cut? ['-'] (Chars.trim s.toList) with
  | some (lo, hi) => do
    let lo : α ← readFinite? (String.ofList lo)
    let hi ← readFinite? (String.ofList hi)
    pure (if Quantity.atMost lo hi then ⟨lo, hi⟩ else ⟨hi, lo⟩)
  | none => (readFinite? s).map fixed

/-- The range with another lower bound; the upper one is raised to it if it has to be. -/
def setMin [Quantity α] (r : Range α) (a : α) : Range α :=
  ⟨a, if Quantity.less r.max a then a else r.max⟩

/-- The range with another upper bound; the lower one is brought down to it if it has to be. -/
def setMax [Quantity α] (r : Range α) (a : α) : Range α :=
  ⟨if Quantity.less a r.min then a else r.min, a⟩

variable {γ : Type} [Generator γ]

/-- Settles a range of whole numbers. -/
def settle (r : Range UInt32) (g : γ) : UInt32 × γ :=
  if r.isFixed then (r.min, g)
  else
    let (n, g) := Random.between r.min.toNat r.max.toNat g
    (UInt32.ofNat n, g)

/-- Settles a range of doubles, as long as its bounds are not infinitely far apart. -/
def settle? (r : Range Float) (g : γ) : Option (Float × γ) :=
  if r.isFixed then some (r.min, g) else Random.floatBetween? r.min r.max g

end Range

instance {α : Type} [JsonForm α] : JsonForm (Range α) where
  toJson r := .object [("min", toJson r.min), ("max", toJson r.max)]
  ofJson? v := do
    let v ← v.asStruct? ["min", "max"]
    pure ⟨← v.field? "min", ← v.field? "max"⟩

end RenderFarm
