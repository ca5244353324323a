/-!
Base64 with the standard alphabet and padding. Reading accepts exactly the texts that writing produces: the
padding has to be there and the bits that it leaves over have to be zero.
-/

namespace RenderFarm.Base64

/-- The character of a number below 64. -/
def encodeDigit (n : Nat) : Char :=
  if n < 26 then Char.ofNat ('A'.toNat + n)
  else if n < 52 then Char.ofNat ('a'.toNat + (n - 26))
  else if n < 62 then Char.ofNat ('0'.toNat + (n - 52))
  else if n = 62 then '+' else '/'

/-- The number of a character. -/
def decodeDigit? (c : Char) : Option Nat :=
  if c.isUpper then some (c.toNat - 'A'.toNat)
  else if c.isLower then some (c.toNat - 'a'.toNat + 26)
  else if c.isDigit then some (c.toNat - '0'.toNat + 52)
  else if c = '+' then some 62
  else if c = '/' then some 63
  else none

/-- Writes bytes in groups of three. -/
def encodeChars : List UInt8 → List Char
  | [] => []
  | [a] => [encodeDigit (a.toNat / 4), encodeDigit (a.toNat % 4 * 16), '=', '=']
  | [a, b] =>
    [encodeDigit (a.toNat / 4), encodeDigit (a.toNat % 4 * 16 + b.toNat / 16),
      encodeDigit (b.toNat % 16 * 4), '=']
  | a :: b :: c :: rest =>
    encodeDigit (a.toNat / 4) :: encodeDigit (a.toNat % 4 * 16 + b.toNat / 16) ::
      encodeDigit (b.toNat % 16 * 4 + c.toNat / 64) :: encodeDigit (c.toNat % 64) ::
      encodeChars rest

/-- Reads groups of four characters, the last of which may be padded. -/
def decodeChars? : List Char → Option (List UInt8)
  | [] => some []
  | a :: b :: c :: d :: rest => do
    let x ← decodeDigit? a
    let y ← decodeDigit? b
    if c = '=' then
      if d = '=' ∧ rest.isEmpty ∧ y % 16 = 0 then some [UInt8.ofNat (x * 4 + y / 16)] else none
    else
      let z ← decodeDigit? c
      if d = '=' then
        if rest.isEmpty ∧ z % 4 = 0 then
          some [UInt8.ofNat (x * 4 + y / 16), UInt8.ofNat (y % 16 * 16 + z / 4)]
        else none
      else
        let w ← decodeDigit? d
        let bytes ← decodeChars? rest
        some (UInt8.ofNat (x * 4 + y / 16) :: UInt8.ofNat (y % 16 * 16 + z / 4) ::
          UInt8.ofNat (z % 4 * 64 + w) :: bytes)
  | _ => none

/-- Writes bytes as text. -/
def encode (bytes : ByteArray) : String :=
  String.ofList (encodeChars bytes.toList)

/-- Reads the bytes that a text stands for. -/
def decode? (s : String) : Option ByteArray :=
  (decodeChars? s.toList).map fun bytes => ⟨bytes.toArray⟩

end RenderFarm.Base64
