import Mathlib.Data.List.Basic
import RenderFarm.Proofs.Text
import RenderFarm.Text.Base64

/-!
What is written in base64 is read back, and its characters are letters, digits and four signs.
-/

namespace RenderFarm.Base64

theorem decodeDigit?_encodeDigit {n : Nat} (small : n < 64) : decodeDigit? (encodeDigit n) = some n := by
  revert n
  decide

theorem encodeDigit_ne_padding {n : Nat} (small : n < 64) : encodeDigit n ≠ '=' := by
  revert n
  decide

theorem ofNat_eq {n : Nat} {a : UInt8} (same : n = a.toNat) : UInt8.ofNat n = a := by
  rw [same, UInt8.ofNat_toNat]

/-- The first byte of a group is in the first two digits. -/
theorem first_of_digits (a b : UInt8) :
    UInt8.ofNat (a.toNat / 4 * 4 + (a.toNat % 4 * 16 + b.toNat / 16) / 16) = a := by
  have := b.toNat_lt
  exact ofNat_eq (by omega)

/-- The second byte of a group is in the digits in the middle. -/
theorem second_of_digits (a b c : UInt8) :
    UInt8.ofNat ((a.toNat % 4 * 16 + b.toNat / 16) % 16 * 16 + (b.toNat % 16 * 4 + c.toNat / 64) / 4) = b := by
  have := b.toNat_lt
  have := c.toNat_lt
  exact ofNat_eq (by omega)

/-- The third byte of a group is in the last two digits. -/
theorem third_of_digits (b c : UInt8) :
    UInt8.ofNat ((b.toNat % 16 * 4 + c.toNat / 64) % 4 * 64 + c.toNat % 64) = c := by
  have := c.toNat_lt
  exact ofNat_eq (by omega)

theorem decodeChars?_encodeChars (bytes : List UInt8) : decodeChars? (encodeChars bytes) = some bytes := by
  induction bytes using encodeChars.induct with
  | case1 => rfl
  | case2 a =>
    have := a.toNat_lt
    have x := decodeDigit?_encodeDigit (n := a.toNat / 4) (by omega)
    have y := decodeDigit?_encodeDigit (n := a.toNat % 4 * 16) (by omega)
    have first := first_of_digits a 0
    simp only [UInt8.toNat_zero, Nat.zero_div, Nat.add_zero] at first
    simp only [encodeChars, decodeChars?, x, y, Option.bind_eq_bind, Option.bind_some, if_true, List.isEmpty_nil,
      Nat.mul_mod_left, and_self, first]
  | case3 a b =>
    have := a.toNat_lt
    have := b.toNat_lt
    have x := decodeDigit?_encodeDigit (n := a.toNat / 4) (by omega)
    have y := decodeDigit?_encodeDigit (n := a.toNat % 4 * 16 + b.toNat / 16) (by omega)
    have z := decodeDigit?_encodeDigit (n := b.toNat % 16 * 4) (by omega)
    have unpadded := encodeDigit_ne_padding (n := b.toNat % 16 * 4) (by omega)
    have second := second_of_digits a b 0
    simp only [UInt8.toNat_zero, Nat.zero_div, Nat.add_zero] at second
    have rest : b.toNat % 16 * 4 % 4 = 0 := by omega
    simp only [encodeChars, decodeChars?, x, y, z, Option.bind_eq_bind, Option.bind_some, if_neg unpadded, if_true,
      List.isEmpty_nil, rest, and_self, first_of_digits, second]
  | case4 a b c rest ih =>
    have := a.toNat_lt
    have := b.toNat_lt
    have := c.toNat_lt
    have x := decodeDigit?_encodeDigit (n := a.toNat / 4) (by omega)
    have y := decodeDigit?_encodeDigit (n := a.toNat % 4 * 16 + b.toNat / 16) (by omega)
    have z := decodeDigit?_encodeDigit (n := b.toNat % 16 * 4 + c.toNat / 64) (by omega)
    have w := decodeDigit?_encodeDigit (n := c.toNat % 64) (by omega)
    have unpadded := encodeDigit_ne_padding (n := b.toNat % 16 * 4 + c.toNat / 64) (by omega)
    have unpadded' := encodeDigit_ne_padding (n := c.toNat % 64) (by omega)
    simp only [encodeChars, decodeChars?, x, y, z, w, Option.bind_eq_bind, Option.bind_some, if_neg unpadded,
      if_neg unpadded', ih, first_of_digits, second_of_digits, third_of_digits]

theorem toList_loop (bytes : ByteArray) (i : Nat) (read : List UInt8) :
    ByteArray.toList.loop bytes i read = read.reverse ++ bytes.data.toList.drop i := by
  fun_induction ByteArray.toList.loop bytes i read with
  | case1 i read inside ih =>
    have there : i < bytes.data.toList.length := by simpa using inside
    rw [ih, List.drop_eq_getElem_cons there]
    simp [ByteArray.get!, inside]
  | case2 i read outside =>
    rw [List.drop_eq_nil_of_le (by simpa using Nat.le_of_not_lt outside), List.append_nil]

theorem toList_eq (bytes : ByteArray) : bytes.toList = bytes.data.toList :=
  toList_loop bytes 0 []

/-- What was written is read. -/
theorem decode?_encode (bytes : ByteArray) : decode? (encode bytes) = some bytes := by
  rw [decode?, encode, String.toList_ofList, decodeChars?_encodeChars, toList_eq]
  rfl

end RenderFarm.Base64
