import RenderFarm.Json.Codec
import RenderFarm.Text.Search
import RenderFarm.Time.Calendar

/-!
Points in time as text. They are written in universal time with as many groups of three decimals as needed.
They are read in any offset; blanks may stand around the parts, and a blank may stand in for the letter
between date and time.
-/

namespace RenderFarm

/-- A point in time: seconds from the start of 1970 and nanoseconds after that. A leap second counts as a
second thousand million nanoseconds of the second before it. -/
structure Instant where
  seconds : Int
  nanos : Nat := 0
deriving DecidableEq, Repr

namespace Instant

/-- The date in universal time. -/
def date (t : Instant) : Date :=
  Date.ofDays (t.seconds / 86400)

/-- Hour, minute and second in universal time. -/
def clock (t : Instant) : Nat × Nat × Nat :=
  let s := (t.seconds % 86400).toNat
  (s / 3600, s / 60 % 60, s % 60)

/-- The point in time of a date and a time of day. -/
def ofParts (d : Date) (hour minute second : Nat) : Instant :=
  ⟨d.toDays * 86400 + hour * 3600 + minute * 60 + second, 0⟩

/-- Decimals of a second in groups of three, after a point; none for a whole second. -/
def fractionText (nanos : Nat) : String :=
  if nanos = 0 then ""
  else if nanos % 1000000 = 0 then "." ++ padded 3 (nanos / 1000000)
  else if nanos % 1000 = 0 then "." ++ padded 6 (nanos / 1000)
  else "." ++ padded 9 nanos

/-- The text of a point in time. -/
def text (t : Instant) : String :=
  let (hour, minute, second) := t.clock
  let leap := 1000000000 ≤ t.nanos
  t.date.text ++ "T" ++ padded 2 hour ++ ":" ++ padded 2 minute ++ ":" ++
    padded 2 (if leap then second + 1 else second) ++
    fractionText (if leap then t.nanos - 1000000000 else t.nanos) ++ "Z"

/-- Drops blanks at the front. -/
def skip (s : List Char) : List Char :=
  s.dropWhile Chars.isBlank

/-- Reads up to a number of digits, at least one, after blanks. -/
def number? (width : Nat) (s : List Char) : Option (Nat × List Char) :=
  let s := skip s
  let digits := (s.take width).takeWhile Char.isDigit
  if digits.isEmpty then none else some (Chars.digitsValue digits, s.drop digits.length)

/-- Reads a year: four digits at most, or any number of them after a sign. -/
def year? (s : List Char) : Option (Int × List Char) :=
  match skip s with
  | '-' :: rest =>
    let digits := rest.takeWhile Char.isDigit
    if digits.isEmpty then none
    else some (-(Chars.digitsValue digits : Int), rest.drop digits.length)
  | '+' :: rest =>
    let digits := rest.takeWhile Char.isDigit
    if digits.isEmpty then none else some (Chars.digitsValue digits, rest.drop digits.length)
  | s => (number? 4 s).map fun (n, rest) => ((n : Int), rest)

/-- Reads a fixed character after blanks. -/
def mark? (c : Char) (s : List Char) : Option (List Char) :=
  match skip s with
  | d :: rest => if c = d then some rest else none
  | [] => none

/-- Reads decimals of a second, as nanoseconds; digits after the ninth are passed over. -/
def fraction? (s : List Char) : Option (Nat × List Char) :=
  match s with
  | '.' :: rest =>
    let digits := rest.takeWhile Char.isDigit
    if digits.isEmpty then none
    else
      let kept := digits.take 9
      some (Chars.digitsValue kept * tenTo (9 - kept.length), rest.drop digits.length)
  | s => some (0, s)

/-- Reads two digits. -/
def twoDigits? : List Char → Option (Nat × List Char)
  | a :: b :: rest =>
    if a.isDigit && b.isDigit then some (Chars.digitsValue [a, b], rest) else none
  | _ => none

/-- Reads an offset from universal time, in seconds. -/
def offset? (s : List Char) : Option (Int × List Char) :=
  match skip s with
  | 'Z' :: rest => some (0, rest)
  | 'z' :: rest => some (0, rest)
  | c :: rest =>
    if ((c :: rest).take 3).map Char.toLower = ['u', 't', 'c'] then some (0, rest.drop 2)
    else if c = '+' ∨ c = '-' ∨ c = '\u2212' then do
      let (hours, rest) ← twoDigits? rest
      let (minutes, rest) ← twoDigits? (rest.dropWhile fun c => c == ':' || Chars.isBlank c)
      if minutes < 60 ∧ hours < 24 then
        let n : Int := hours * 3600 + minutes * 60
        some (if c = '+' then n else -n, rest)
      else none
    else none
  | [] => none

/-- Reads a date. -/
def date? (s : List Char) : Option (Date × List Char) := do
  let (year, s) ← year? s
  let s ← mark? '-' s
  let (month, s) ← number? 2 s
  let s ← mark? '-' s
  let (day, s) ← number? 2 s
  pure (⟨year, month, day⟩, s)

/-- Passes over the letter between date and time. -/
def letter? : List Char → Option (List Char)
  | c :: rest => if c = 'T' ∨ c = 't' ∨ c = ' ' then some rest else none
  | [] => none

/-- Reads hour, minute and second. -/
def clock? (s : List Char) : Option ((Nat × Nat × Nat) × List Char) := do
  let (hour, s) ← number? 2 s
  let s ← mark? ':' s
  let (minute, s) ← number? 2 s
  let s ← mark? ':' s
  let (second, s) ← number? 2 s
  pure ((hour, minute, second), s)

/-- The point in time of a date and a time of day at an offset. The date has to be within reach both there and in
universal time. -/
def ofParts? (d : Date) (clock : Nat × Nat × Nat) (nanos : Nat) (offset : Int) : Option Instant :=
  let (hour, minute, second) := clock
  if d.isValid ∧ d.inReach ∧ hour < 24 ∧ minute < 60 ∧ second ≤ 60 then
    let t : Instant :=
      ⟨(ofParts d hour minute (min second 59)).seconds - offset,
        if second = 60 then nanos + 1000000000 else nanos⟩
    if t.date.inReach then some t else none
  else none

/-- Reads a point in time. -/
def ofChars? (s : List Char) : Option Instant := do
  let (d, s) ← date? s
  let s ← letter? s
  let (clock, s) ← clock? s
  let (nanos, s) ← fraction? s
  let (offset, s) ← offset? s
  if (skip s).isEmpty then ofParts? d clock nanos offset else none

instance : JsonForm Instant where
  toJson t := .string t.text
  ofJson?
    | .string s => ofChars? s.toList
    | _ => none

end Instant

end RenderFarm
