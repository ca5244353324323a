import RenderFarm.Json.Value
import RenderFarm.Number.Reading

/-!
Numbers of JSON. A number without fraction and exponent that fits in 64 bits is whole. Any other is a
double: its leading digits, as many as fit in 64 bits, are rounded to a double that is then multiplied or
divided by a power of ten, in steps of at most `10 ^ 308`. The result may be one unit away from the nearest
double; one that overflows has no value.
-/

namespace RenderFarm.Json

/-- The digits kept of a number, with the power of ten that they are to be multiplied by. -/
structure Significand where
  digits : Nat
  exponent : Int

/-- Adds digits before the point. From the first digit that does not fit in 64 bits on, each raises the
exponent instead. -/
def Significand.addWhole (s : Significand) : List Char → Significand
  | [] => s
  | c :: cs =>
    let n := s.digits * 10 + (Chars.digitValue? c).getD 0
    if n < twoTo 64 then addWhole ⟨n, s.exponent⟩ cs
    else ⟨s.digits, s.exponent + (cs.length + 1)⟩

/-- Adds digits after the point. From the first digit that does not fit in 64 bits on, they are ignored. -/
def Significand.addFraction (s : Significand) : List Char → Significand
  | [] => s
  | c :: cs =>
    let n := s.digits * 10 + (Chars.digitValue? c).getD 0
    if n < twoTo 64 then addFraction ⟨n, s.exponent - 1⟩ cs else s

/-- Multiplies or divides by a power of ten. Exponents below -308 take several divisions; there are at most
`fuel` of them. -/
def scaleByTen (x : Float) (exponent : Int) : Nat → Option Float
  | 0 => some 0
  | fuel + 1 =>
    if 0 ≤ exponent then
      if exponent ≤ 308 then
        let y := x * Float.ofScientific 1 false exponent.toNat
        if y.isFinite then some y else none
      else if x == 0 then some x
      else none
    else if -308 ≤ exponent then some (x / Float.ofScientific 1 false (-exponent).toNat)
    else if x == 0 then some x
    else scaleByTen (x / Float.ofScientific 1 false 308) (exponent + 308) fuel

/-- The absolute value of a number with these kept digits. -/
def Significand.toFloat? (s : Significand) : Option Float :=
  scaleByTen (Float.ofNat s.digits) s.exponent ((-s.exponent).toNat / 308 + 1)

/-- The value of a number given by its sign, the digits before and after the point and the exponent with
its sign; `none` stands for a part that is not written. An exponent beyond 32 bits is an overflow when it
is positive and the digits are not zero, and gives zero otherwise. -/
def numberOf (negative : Bool) (whole : List Char) (fraction : Option (List Char))
    (exponent : Option (Bool × List Char)) : Json :=
  let signed (x : Float) : Json := .float (if negative then -x else x)
  let s := (Significand.mk 0 0).addWhole whole
  match fraction, exponent with
  | none, none =>
    if s.exponent ≠ 0 then
      match s.toFloat? with
      | some x => signed x
      | none => .unreadable
    else if !negative then .int s.digits
    else if 0 < s.digits ∧ s.digits ≤ twoTo 63 then .int (-(s.digits : Int))
    else .float (-(Float.ofNat s.digits))
  | _, _ =>
    let s := match fraction with
      | some digits => s.addFraction digits
      | none => s
    match exponent with
    | none =>
      match s.toFloat? with
      | some x => signed x
      | none => .unreadable
    | some (down, digits) =>
      let e := Chars.digitsValue digits
      if twoTo 31 ≤ e then
        if s.digits ≠ 0 ∧ !down then .unreadable else signed 0
      else
        let e : Int := if down then s.exponent - e else s.exponent + e
        match (Significand.mk s.digits (max (-(twoTo 31 : Int)) (min (twoTo 31 - 1) e))).toFloat? with
        | some x => signed x
        | none => .unreadable

end RenderFarm.Json
