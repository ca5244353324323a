import RenderFarm.Number.Shortest

/-!
Numbers as text. Two layouts are in use: the one of records and requests, which keeps `.0` on whole numbers
and turns to an exponent for very large and very small ones, and the plain one of messages and file names,
which never does either.
-/

namespace RenderFarm

/-- How the digits of a double are laid out. -/
structure NumberLayout where
  /-- The decimal exponents written without an exponent mark; `none` stands for all of them. -/
  positional : Option (Int × Int)
  /-- What follows a whole number. -/
  wholeMark : String
deriving DecidableEq, Repr

namespace NumberLayout

/-- Numbers in records and requests: exponents from -5 to 15 are positional and whole numbers end in `.0`. -/
def record : NumberLayout := ⟨some (-5, 15), ".0"⟩

/-- Numbers in messages and file names: always positional and without a trailing mark. -/
def plain : NumberLayout := ⟨none, ""⟩

/-- Digits with the decimal point set for a power of ten. -/
def writePositional (wholeMark : String) (d : Decimal) : String :=
  let digits := (Nat.repr d.digits).toList
  if 0 ≤ d.exponent then
    String.ofList (digits ++ List.replicate d.exponent.toNat '0') ++ wholeMark
  else
    let places := (-d.exponent).toNat
    if digits.length ≤ places then
      "0." ++ String.ofList (List.replicate (places - digits.length) '0' ++ digits)
    else
      String.ofList (digits.take (digits.length - places)) ++ "." ++
        String.ofList (digits.drop (digits.length - places))

/-- Digits with a point after the first and a signed exponent. -/
def writeScientific (d : Decimal) : String :=
  let digits := (Nat.repr d.digits).toList
  let exponent := d.exponent + digits.length - 1
  let sign := if exponent < 0 then "-" else "+"
  let mantissa :=
    match digits with
    | [] => ""
    | [c] => String.singleton c
    | c :: rest => String.ofList (c :: '.' :: rest)
  mantissa ++ "e" ++ sign ++ Nat.repr exponent.natAbs

/-- Lays out an unsigned decimal. -/
def writeDecimal (layout : NumberLayout) (d : Decimal) : String :=
  let exponent := d.exponent + (Nat.repr d.digits).length - 1
  match layout.positional with
  | none => writePositional layout.wholeMark d
  | some (least, greatest) =>
    if least ≤ exponent ∧ exponent ≤ greatest then writePositional layout.wholeMark d
    else writeScientific d

/-- Writes a double with the fewest digits that read back. -/
def write (layout : NumberLayout) (x : Float) : String :=
  if x.isNaN then "NaN"
  else
    let sign := if (Binary.ofFloat x).negative then "-" else ""
    if !x.isFinite then sign ++ "inf"
    else sign ++ layout.writeDecimal (Decimal.shortest x)

end NumberLayout

end RenderFarm
