import RenderFarm.Number.Power
import RenderFarm.Text.Search

/-!
Numbers read from text: whole numbers of a given width, with the reason when one cannot be read, and
doubles, rounded correctly from any number of digits.
-/

namespace RenderFarm

/-- Why a text is not a whole number of the wanted width. -/
inductive NumberFault where
  | empty
  | invalidDigit
  | tooLarge
  | tooSmall
deriving DecidableEq, Repr

/-- The wording of a fault. -/
def NumberFault.message : NumberFault → String
  | .empty => "cannot parse integer from empty string"
  | .invalidDigit => "invalid digit found in string"
  | .tooLarge => "number too large to fit in target type"
  | .tooSmall => "number too small to fit in target type"

namespace Chars

/-- The value of an ASCII digit. -/
def digitValue? (c : Char) : Option Nat :=
  if c.isDigit then some (c.toNat - '0'.toNat) else none

/-- The value of a run of ASCII digits. Other characters count as zero. -/
def digitsValue (s : List Char) : Nat :=
  s.foldl (fun acc c => acc * 10 + (digitValue? c).getD 0) 0

/-- Reads digits after `acc`, which must stay at most `limit`. The first fault from the left counts: at each
character a foreign character comes before an overflow. -/
def readDigits (limit : Nat) (fault : NumberFault) (acc : Nat) : List Char → Except NumberFault Nat
  | [] => .ok acc
  | c :: s =>
    match digitValue? c with
    | none => .error .invalidDigit
    | some d =>
      if acc * 10 + d ≤ limit then readDigits limit fault (acc * 10 + d) s else .error fault

/-- Reads a natural number up to `limit`, with an optional plus sign. -/
def readNat (limit : Nat) : List Char → Except NumberFault Nat
  | [] => .error .empty
  | ['+'] => .error .invalidDigit
  | '+' :: s => readDigits limit .tooLarge 0 s
  | s => readDigits limit .tooLarge 0 s

/-- Reads a whole number from `-(limit + 1)` to `limit`, with an optional sign. -/
def readInt (limit : Nat) : List Char → Except NumberFault Int
  | [] => .error .empty
  | ['+'] => .error .invalidDigit
  | ['-'] => .error .invalidDigit
  | '-' :: s => (readDigits (limit + 1) .tooSmall 0 s).map fun n => -(n : Int)
  | '+' :: s => (readDigits limit .tooLarge 0 s).map Int.ofNat
  | s => (readDigits limit .tooLarge 0 s).map Int.ofNat

end Chars

/-- The double nearest to `digits · 10 ^ exponent`. -/
def floatOfDecimal (digits : Nat) (exponent : Int) : Float :=
  if digits = 0 then 0
  else
    let magnitude := (Nat.repr digits).length + exponent
    if 310 < magnitude then Float.ofBits 0x7FF0000000000000
    else if magnitude < -330 then 0
    else if 0 ≤ exponent then Float.ofScientific digits false exponent.toNat
    else Float.ofScientific digits true (-exponent).toNat

namespace Chars

/-- Reads an exponent mark with its exponent, when the text holds nothing else. -/
def readExponent? : List Char → Option Int
  | [] => some 0
  | c :: s =>
    if c = 'e' ∨ c = 'E' then
      let (negative, digits) :=
        match s with
        | '-' :: s => (true, s)
        | '+' :: s => (false, s)
        | s => (false, s)
      if digits.isEmpty || !digits.all Char.isDigit then none
      else if negative then some (-(digitsValue digits : Int)) else some (digitsValue digits)
    else none

/-- Reads an unsigned decimal: digits with an optional point among or beside them and an optional exponent. -/
def readDecimal? (s : List Char) : Option Float :=
  let whole := s.takeWhile Char.isDigit
  let rest := s.dropWhile Char.isDigit
  let (fraction, rest) :=
    match rest with
    | '.' :: rest => (rest.takeWhile Char.isDigit, rest.dropWhile Char.isDigit)
    | rest => ([], rest)
  if whole.isEmpty && fraction.isEmpty then none
  else
    (readExponent? rest).map fun e =>
      floatOfDecimal (digitsValue (whole ++ fraction)) (e - fraction.length)

/-- Reads an unsigned double, the words for infinity and NaN included. -/
def readUnsigned? (s : List Char) : Option Float :=
  let word := String.ofList (s.map Char.toLower)
  if word = "inf" ∨ word = "infinity" then some (Float.ofBits 0x7FF0000000000000)
  else if word = "nan" then some (Float.ofBits 0x7FF8000000000000)
  else readDecimal? s

/-- Reads a double with an optional sign. -/
def readFloat? : List Char → Option Float
  | '-' :: s => (readUnsigned? s).map (- ·)
  | '+' :: s => readUnsigned? s
  | s => readUnsigned? s

end Chars

end RenderFarm
