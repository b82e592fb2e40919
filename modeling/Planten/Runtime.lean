import Mathlib.Data.List.DropRight
import Planten.Library.Decoder
import Planten.Library.LittleEndian

/-
  The parts of the Rust runtime the programs rely on: panics,
  I/O errors, strings as UTF-8, and checked arithmetic.

  The model is of a 64-bit target, so a `usize` ranges below
  `2 ^ 64` and no vector exceeds `isizeMax` bytes.

  Key definitions include:
    * `Panic`
    * `IoError`
    * `Fault`
    * `Profile`
    * `usizeAdd`
    * `asBytes`
    * `fromUtf8`
    * `resize`
    * `splitWhitespace`
    * `parseUsize`
-/

------------------------------------------------------------
-- Failures
------------------------------------------------------------

namespace Planten

abbrev Bytes :=
  List UInt8

/- The ways a thread of the programs can panic. -/
inductive Panic where
| addOverflow
| capacityOverflow
| sliceOutOfRange
| unwrapFailed
| poisonedLock
deriving DecidableEq, Repr

inductive IoErrorKind where
| unexpectedEof
| invalidData
deriving DecidableEq, Repr

/- An `io::Error`: its kind and the text it displays. -/
structure IoError where
  kind : IoErrorKind
  message : String
deriving DecidableEq, Repr

/- The error of `read_exact` on a cursor that runs dry. -/
def IoError.eof : IoError :=
  ⟨.unexpectedEof, "failed to fill whole buffer"⟩

/- Why a handler or a call stops early. -/
inductive Fault where
| io (err : IoError)
| panic (cause : Panic)
deriving DecidableEq, Repr

/- A sequence succeeds when both of its parts do. -/
theorem bind_eq_ok_iff
    {ε α β : Type}
    {x : Except ε α}
    {f : α → Except ε β}
    {b : β} :
    (x >>= f) = .ok b ↔ ∃ a, x = .ok a ∧ f a = .ok b := by
  cases x with
  | error e =>
      constructor
      · intro hEq
        cases hEq
      · rintro ⟨a, hEq, _⟩
        cases hEq
  | ok a =>
      constructor
      · intro hEq
        exact ⟨a, rfl, hEq⟩
      · rintro ⟨a', hEq, hRest⟩
        cases hEq
        exact hRest

/- A mapped success is the image of a success. -/
theorem ok_of_map
    {ε α β : Type}
    {x : Except ε α}
    {f : α → β}
    {b : β}
    (hMap : x.map f = .ok b) :
    ∃ a, x = .ok a ∧ f a = b := by
  cases x with
  | error e =>
      cases hMap
  | ok a =>
      exact ⟨a, rfl, Except.ok.inj hMap⟩

/- A sequence fails in its first or in its second part. -/
theorem bind_eq_error_iff
    {ε α β : Type}
    {x : Except ε α}
    {f : α → Except ε β}
    {e : ε} :
    (x >>= f) = .error e ↔
      x = .error e ∨ ∃ a, x = .ok a ∧ f a = .error e := by
  cases x with
  | error e' =>
      constructor
      · intro hEq
        cases hEq
        exact Or.inl rfl
      · rintro (hEq | ⟨a, hEq, _⟩)
        · cases hEq
          rfl
        · cases hEq
  | ok a =>
      constructor
      · intro hEq
        exact Or.inr ⟨a, rfl, hEq⟩
      · rintro (hEq | ⟨a', hEq, hRest⟩)
        · cases hEq
        · cases hEq
          exact hRest

end Planten

------------------------------------------------------------
-- Arithmetic
------------------------------------------------------------

namespace Planten

/- Build profiles: overflow panics in `dev`, wraps in `release`. -/
inductive Profile where
| dev
| release
deriving DecidableEq, Repr

/- The largest `isize`, which bounds every vector. -/
def isizeMax : Nat :=
  2 ^ 63 - 1

/- Addition of two `usize` values. -/
def usizeAdd
    (profile : Profile)
    (a b : Nat) : Except Panic Nat :=
  if a + b < 2 ^ 64 then
    .ok (a + b)
  else
    match profile with
    | .dev => .error .addOverflow
    | .release => .ok ((a + b) % 2 ^ 64)

/- Addition of two `u32` values in the dev profile. -/
def u32Add
    (a b : UInt32) : Except Panic UInt32 :=
  if a.toNat + b.toNat < 2 ^ 32 then
    .ok (a + b)
  else
    .error .addOverflow

/- `Vec::resize` with zero bytes. -/
def resize
    (data : Bytes)
    (length : Nat) : Except Panic Bytes :=
  if length ≤ data.length then
    .ok (data.take length)
  else if length ≤ isizeMax then
    .ok (data ++ List.replicate (length - data.length) 0)
  else
    .error .capacityOverflow

theorem usizeAdd_of_lt
    {profile : Profile}
    {a b : Nat}
    (hFits : a + b < 2 ^ 64) :
    usizeAdd profile a b = .ok (a + b) :=
  if_pos hFits

/- A resized vector has the length asked for. -/
theorem length_of_resize
    {data data' : Bytes}
    {length : Nat}
    (hResize : resize data length = .ok data') :
    data'.length = length := by
  unfold resize at hResize
  split at hResize
  · cases hResize
    simpa using ‹length ≤ data.length›
  · split at hResize
    · cases hResize
      simp
      omega
    · cases hResize

end Planten

------------------------------------------------------------
-- Strings
------------------------------------------------------------

namespace Planten

/- `str::as_bytes`. -/
def asBytes (s : String) : Bytes :=
  s.toByteArray.data.toList

/- `String::from_utf8`. -/
def fromUtf8 (bs : Bytes) : Option String :=
  String.fromUTF8? ⟨bs.toArray⟩

@[simp] theorem length_asBytes (s : String) :
    (asBytes s).length = s.utf8ByteSize := by
  rfl

/- The bytes of a string are valid UTF-8 for it. -/
@[simp] theorem fromUtf8_asBytes (s : String) :
    fromUtf8 (asBytes s) = some s := by
  have hArray :
      (⟨(asBytes s).toArray⟩ : ByteArray) =
        s.toByteArray := by
    simp [asBytes]
  rw [fromUtf8, hArray, String.fromUTF8?,
    dif_pos s.isValidUTF8]
  rfl

/- Only the bytes of a string decode to it. -/
theorem asBytes_of_fromUtf8
    {bs : Bytes}
    {s : String}
    (hDecode : fromUtf8 bs = some s) :
    asBytes s = bs := by
  rw [fromUtf8, String.fromUTF8?] at hDecode
  split at hDecode
  · cases hDecode
    simp [asBytes, String.fromUTF8]
  · cases hDecode

/- `char::is_whitespace`: the `White_Space` of Unicode. -/
def isWhitespace (c : Char) : Bool :=
  let code := c.toNat
  decide (0x09 ≤ code ∧ code ≤ 0x0d ∨
    0x2000 ≤ code ∧ code ≤ 0x200a ∨
    code ∈ [0x20, 0x85, 0xa0, 0x1680, 0x2028, 0x2029,
      0x202f, 0x205f, 0x3000])

/- `str::trim`. -/
def trim (s : String) : String :=
  String.ofList
    ((s.toList.dropWhile isWhitespace).rdropWhile
      isWhitespace)

/- `str::split_whitespace`. -/
def splitWhitespace (s : String) : List String :=
  ((s.toList.splitOnP isWhitespace).map
    String.ofList).filter (fun word => word ≠ "")

end Planten

------------------------------------------------------------
-- Numbers as Text
------------------------------------------------------------

namespace Planten

/- The digits of a number, behind one plus sign or none. -/
def unsignedDigits (s : String) : List Char :=
  match s.toList with
  | '+' :: digits => digits
  | digits => digits

/- `str::parse::<usize>`. -/
def parseUsize (s : String) : Option Nat :=
  let digits := unsignedDigits s
  if digits ≠ [] ∧ digits.all Char.isDigit ∧
      Nat.ofDigitChars 10 digits 0 < 2 ^ 64 then
    some (Nat.ofDigitChars 10 digits 0)
  else
    none

/- The plain digits of a number have no sign. -/
theorem unsignedDigits_repr (n : Nat) :
    unsignedDigits n.repr = Nat.toDigits 10 n := by
  unfold unsignedDigits
  rw [Nat.toList_repr]
  split
  · rename_i digits hDigits
    have hSign : '+' ∈ Nat.toDigits 10 n := by
      rw [hDigits]
      exact List.mem_cons_self ..
    have hDigit :=
      Nat.isDigit_of_mem_toDigits (by decide) (by decide)
        hSign
    exact absurd hDigit (by decide)
  · rfl

/- A number printed in decimal is parsed back. -/
theorem parseUsize_repr
    {n : Nat}
    (hFits : n < 2 ^ 64) :
    parseUsize n.repr = some n := by
  have hDigits :
      (Nat.toDigits 10 n).all Char.isDigit = true := by
    rw [List.all_eq_true]
    intro c hMem
    exact Nat.isDigit_of_mem_toDigits (by decide)
      (by decide) hMem
  have hNonempty : Nat.toDigits 10 n ≠ [] :=
    Nat.toDigits_ne_nil
  unfold parseUsize
  simp only [unsignedDigits_repr,
    Nat.ofDigitChars_ten_toDigits]
  rw [if_pos ⟨hNonempty, hDigits, hFits⟩]

end Planten
