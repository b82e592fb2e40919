import Planten.NineP.Codec

/-
  9P frames: a size, a type, a tag and a body.

  Key definitions include:
    * `RawMessage`
    * `RawMessage.readFrom`
    * `buildFrame`

  Key theorems include:
    * `buildFrame_of_fits`
    * `buildFrame_eq_error_iff`
    * `decodes_readFrom`
-/

------------------------------------------------------------
-- Frames
------------------------------------------------------------

namespace Planten

structure RawMessage where
  size : UInt32
  msgType : UInt8
  tag : UInt16
  body : Bytes
deriving DecidableEq, Repr

/- Read one frame off a stream. -/
def RawMessage.readFrom : Decoder IoError RawMessage := do
  let size ← word 4 UInt32.ofNat
  if size < 7 then
    throw ⟨.invalidData, "message header too small"⟩
  let header ← Decoder.readExact IoError.eof 3
  let msgType := header.headD 0
  let tag :=
    UInt16.ofNat (LittleEndian.value (header.drop 1))
  let bodyLen := size.toNat - 7
  let body ← Decoder.readExact IoError.eof bodyLen
  pure ⟨size, msgType, tag, body⟩

/-
  Build a frame.  The size is a `u32` sum, which panics in
  the dev profile for a body of almost `2 ^ 32` bytes.
-/
def buildFrame
    (msgType : UInt8)
    (tag : UInt16)
    (body : Bytes) : Except Panic Bytes := do
  let size ← u32Add 7 (UInt32.ofNat body.length)
  pure (u32le size ++ msgType :: (u16le tag ++ body))

end Planten

------------------------------------------------------------
-- Round Trip
------------------------------------------------------------

namespace Planten

open Decoder (Decodes)

/- The size of a frame around a body. -/
def frameSize (body : Bytes) : UInt32 :=
  UInt32.ofNat (7 + body.length)

/- The frame of a body that fits its size field. -/
def frameBytes
    (msgType : UInt8)
    (tag : UInt16)
    (body : Bytes) : Bytes :=
  u32le (frameSize body) ++ msgType :: (u16le tag ++ body)

/- A body that fits the size field is framed as it stands. -/
theorem buildFrame_of_fits
    (msgType : UInt8)
    (tag : UInt16)
    {body : Bytes}
    (hFits : 7 + body.length < 2 ^ 32) :
    buildFrame msgType tag body =
      .ok (frameBytes msgType tag body) := by
  have hLength :
      (UInt32.ofNat body.length).toNat = body.length := by
    simp
    omega
  have hAdd :
      u32Add 7 (UInt32.ofNat body.length) =
        .ok (frameSize body) := by
    rw [u32Add, hLength, if_pos (by simpa using hFits)]
    simp [frameSize]
  rw [buildFrame, hAdd]
  rfl

/- Only the sum of the size field can panic. -/
theorem buildFrame_eq_error_iff
    {msgType : UInt8}
    {tag : UInt16}
    {body : Bytes}
    {cause : Panic} :
    buildFrame msgType tag body = .error cause ↔
      2 ^ 32 ≤ 7 + body.length % 2 ^ 32 ∧
        cause = .addOverflow := by
  have hSize :
      (7 : UInt32).toNat +
          (UInt32.ofNat body.length).toNat =
        7 + body.length % 2 ^ 32 := by
    simp
  rw [buildFrame, u32Add, hSize]
  by_cases hFits : 7 + body.length % 2 ^ 32 < 2 ^ 32
  · rw [if_pos hFits]
    constructor
    · intro hEq
      cases hEq
    · rintro ⟨hWraps, _⟩
      exact absurd hFits (not_lt.mpr hWraps)
  · rw [if_neg hFits]
    constructor
    · intro hEq
      cases hEq
      exact ⟨not_lt.mp hFits, rfl⟩
    · rintro ⟨_, rfl⟩
      rfl

/- A framed body is read back, and nothing after it. -/
theorem decodes_readFrom
    (msgType : UInt8)
    (tag : UInt16)
    {body : Bytes}
    (hFits : 7 + body.length < 2 ^ 32) :
    Decodes RawMessage.readFrom
      (frameBytes msgType tag body)
      ⟨frameSize body, msgType, tag, body⟩ := by
  have hSize :
      (frameSize body).toNat = 7 + body.length := by
    simp [frameSize]
    omega
  have hSmall : ¬ frameSize body < 7 := by
    rw [UInt32.lt_iff_toNat_lt, hSize]
    simp
  have hHeader :
      (msgType :: u16le tag).length = 3 := by
    simp
  have hTag :
      UInt16.ofNat
        (LittleEndian.value
          ((msgType :: u16le tag).drop 1)) = tag :=
    LittleEndian.ofNat_value_bytes16 tag
  have hBody :=
    Decoder.decodes_readExact IoError.eof
      (show body.length = (frameSize body).toNat - 7 by
        omega)
  have hRest :=
    (Decoder.decodes_readExact IoError.eof
      hHeader).bind
      (f := fun header : Bytes => do
        let bodyBytes ←
          Decoder.readExact IoError.eof
            ((frameSize body).toNat - 7)
        pure (⟨frameSize body, header.headD 0,
          UInt16.ofNat
            (LittleEndian.value (header.drop 1)),
          bodyBytes⟩ : RawMessage))
      hBody.bind_pure
  rw [hTag] at hRest
  refine (decodes_word32 _).bind ?_
  rw [if_neg hSmall]
  exact hRest

end Planten
