import Mathlib.Data.Nat.Basic
import Mathlib.Tactic.Ring

/-
  Little-endian byte codes of numbers.

  Key definitions include:
    * `LittleEndian.bytes`
    * `LittleEndian.value`

  Key theorems include:
    * `LittleEndian.value_bytes`
    * `LittleEndian.bytes_value`
-/

------------------------------------------------------------
-- Codes of a Fixed Width
------------------------------------------------------------

namespace LittleEndian

/- The low `width` bytes of a number, lowest byte first. -/
def bytes : Nat → Nat → List UInt8
| 0, _ => []
| width + 1, n =>
    UInt8.ofNat n :: bytes width (n / 256)

/- The number written by a list of bytes. -/
def value : List UInt8 → Nat
| [] => 0
| b :: bs => b.toNat + 256 * value bs

@[simp] theorem length_bytes
    (width n : Nat) :
    (bytes width n).length = width := by
  induction width generalizing n with
  | zero =>
      rfl
  | succ width ih =>
      simp [bytes, ih]

/- A code of `width` bytes keeps the low part of a number. -/
theorem value_bytes
    (width n : Nat) :
    value (bytes width n) = n % 256 ^ width := by
  induction width generalizing n with
  | zero =>
      simp [bytes, value, Nat.mod_one]
  | succ width ih =>
      have hByte : (UInt8.ofNat n).toNat = n % 256 := by
        simp
      rw [bytes, value, ih, hByte, Nat.pow_succ',
        Nat.mod_mul]

/- A number that fits its width is read back. -/
theorem value_bytes_of_lt
    {width n : Nat}
    (hFits : n < 256 ^ width) :
    value (bytes width n) = n := by
  rw [value_bytes, Nat.mod_eq_of_lt hFits]

/- A list of bytes is the code of the number it writes. -/
theorem bytes_value
    {width : Nat}
    {bs : List UInt8}
    (hLength : bs.length = width) :
    bytes width (value bs) = bs := by
  induction bs generalizing width with
  | nil =>
      subst hLength
      rfl
  | cons b bs ih =>
      subst hLength
      have hByte := b.toNat_lt
      have hHead :
          UInt8.ofNat (b.toNat + 256 * value bs) = b := by
        apply UInt8.toNat_inj.mp
        simp
      have hTail :
          (b.toNat + 256 * value bs) / 256 = value bs := by
        omega
      rw [value, List.length_cons, bytes, hHead, hTail,
        ih rfl]

/- What is written by `width` bytes fits that width. -/
theorem value_lt (bs : List UInt8) :
    value bs < 256 ^ bs.length := by
  induction bs with
  | nil =>
      simp [value]
  | cons b bs ih =>
      have hByte := b.toNat_lt
      rw [value, List.length_cons, Nat.pow_succ]
      omega

end LittleEndian

------------------------------------------------------------
-- Machine Words
------------------------------------------------------------

namespace LittleEndian

/- A two-byte word is read back from its code. -/
theorem ofNat_value_bytes16 (x : UInt16) :
    UInt16.ofNat (value (bytes 2 x.toNat)) = x := by
  rw [value_bytes_of_lt (UInt16.toNat_lt x)]
  exact UInt16.ofNat_toNat

/- A four-byte word is read back from its code. -/
theorem ofNat_value_bytes32 (x : UInt32) :
    UInt32.ofNat (value (bytes 4 x.toNat)) = x := by
  rw [value_bytes_of_lt (UInt32.toNat_lt x)]
  exact UInt32.ofNat_toNat

/- An eight-byte word is read back from its code. -/
theorem ofNat_value_bytes64 (x : UInt64) :
    UInt64.ofNat (value (bytes 8 x.toNat)) = x := by
  rw [value_bytes_of_lt (UInt64.toNat_lt x)]
  exact UInt64.ofNat_toNat

end LittleEndian
