import RenderFarm.Number.Power

/-!
The exact value of a double: a sign, a natural significand and a power of two. Rounding to whole numbers
is done on these parts, in exact arithmetic.
-/

namespace RenderFarm

/-- The parts of a finite double: its absolute value is `significand · 2 ^ exponent`. -/
structure Binary where
  negative : Bool
  significand : Nat
  exponent : Int
deriving DecidableEq, Repr

namespace Binary

/-- The parts of a double. The parts of an infinity or a NaN have no meaning. -/
def ofFloat (x : Float) : Binary :=
  let bits := x.toBits.toNat
  let fraction : Nat := bits % twoTo 52
  let biased : Nat := bits / twoTo 52 % twoTo 11
  { negative := bits / twoTo 63 == 1
    significand := if biased = 0 then fraction else fraction + twoTo 52
    exponent := ((if biased = 0 then 1 else biased : Nat) : Int) - 1075 }

/-- The largest natural number that is not above the absolute value. -/
def wholePart (b : Binary) : Nat :=
  if 0 ≤ b.exponent then b.significand * twoTo b.exponent.toNat
  else b.significand / twoTo (-b.exponent).toNat

/-- Whether the value is a whole number. -/
def isWhole (b : Binary) : Bool :=
  0 ≤ b.exponent || b.significand % twoTo (-b.exponent).toNat == 0

/-- The absolute value rounded to the nearest whole number, a half going up. -/
def nearestWhole (b : Binary) : Nat :=
  if 0 ≤ b.exponent then b.significand * twoTo b.exponent.toNat
  else
    let unit := twoTo (-b.exponent).toNat
    (2 * b.significand + unit) / (2 * unit)

end Binary

/-- Rounds to the nearest whole number, a half going away from zero. Infinities and NaN stay, and so does
the sign of a zero. -/
def roundHalfAway (x : Float) : Float :=
  if !x.isFinite then x
  else
    let b := Binary.ofFloat x
    if b.isWhole then x
    else if b.negative then -(Float.ofNat b.nearestWhole) else Float.ofNat b.nearestWhole

/-- The value rounded down to a natural number and clamped to 32 bits. A negative value and NaN give zero. -/
def floorToUInt32 (x : Float) : UInt32 :=
  if x.isNaN then 0
  else
    let b := Binary.ofFloat x
    if b.negative then 0
    else if !x.isFinite then UInt32.ofNat (twoTo 32 - 1)
    else UInt32.ofNat (min b.wholePart (twoTo 32 - 1))

/-- The power of a double to a whole exponent by repeated squaring; `acc` is multiplied in where the
exponent has a one bit. -/
def powerBySquaring (base acc : Float) (n : Nat) : Float :=
  if h : n = 0 then acc
  else
    let acc := if n % 2 = 1 then acc * base else acc
    if n / 2 = 0 then acc
    else powerBySquaring (base * base) acc (n / 2)
termination_by n
decreasing_by omega

/-- Ten to a whole exponent. A negative exponent takes the reciprocal of the positive power. -/
def powerOfTen (places : Int) : Float :=
  let p := powerBySquaring 10 1 places.natAbs
  if places < 0 then 1 / p else p

/-- Rounds to a number of decimal places by scaling, rounding half away from zero and scaling back. -/
def roundTo (x : Float) (places : Int) : Float :=
  let factor := powerOfTen places
  roundHalfAway (x * factor) / factor

end RenderFarm
