import Planten.Runtime

/-
  The field codecs of the 9P library.

  Key definitions include:
    * `Qid`
    * `Stat`
    * `encodeString`
    * `encodeQidBytes`
    * `encodeStatPayload`
    * `decodeString`
    * `decodeQid`
    * `decodeStat`

  Key theorems include:
    * `yields_decodeStat`
    * `failsIn_decodeStat`
    * `decodes_text`
    * `decodes_decodeQid`
    * `decodes_decodeStat`
    * `decodeStat_run_of_oversize`
-/

------------------------------------------------------------
-- Records
------------------------------------------------------------

namespace Planten

structure Qid where
  qtype : UInt8
  version : UInt32
  path : UInt64
deriving DecidableEq, Repr

structure Stat where
  type_ : UInt16
  dev : UInt32
  qid : Qid
  mode : UInt32
  atime : UInt32
  mtime : UInt32
  length : UInt64
  name : String
  uid : String
  gid : String
  muid : String
deriving DecidableEq, Repr

end Planten

------------------------------------------------------------
-- Encoders
------------------------------------------------------------

namespace Planten

/- `u16::to_le_bytes`. -/
def u16le (x : UInt16) : Bytes :=
  LittleEndian.bytes 2 x.toNat

/- `u32::to_le_bytes`. -/
def u32le (x : UInt32) : Bytes :=
  LittleEndian.bytes 4 x.toNat

/- `u64::to_le_bytes`. -/
def u64le (x : UInt64) : Bytes :=
  LittleEndian.bytes 8 x.toNat

@[simp] theorem length_u16le (x : UInt16) :
    (u16le x).length = 2 :=
  LittleEndian.length_bytes 2 _

@[simp] theorem length_u32le (x : UInt32) :
    (u32le x).length = 4 :=
  LittleEndian.length_bytes 4 _

@[simp] theorem length_u64le (x : UInt64) :
    (u64le x).length = 8 :=
  LittleEndian.length_bytes 8 _

/- A string behind its byte length, cut to 16 bits. -/
def encodeString (value : String) : Bytes :=
  u16le (UInt16.ofNat value.utf8ByteSize) ++ asBytes value

def encodeQidBytes (qid : Qid) : Bytes :=
  qid.qtype :: (u32le qid.version ++ u64le qid.path)

/- The record of a stat, without its length. -/
def statRecord (stat : Stat) : Bytes :=
  u16le stat.type_ ++ (u32le stat.dev ++
    (encodeQidBytes stat.qid ++ (u32le stat.mode ++
    (u32le stat.atime ++ (u32le stat.mtime ++
    (u64le stat.length ++ (encodeString stat.name ++
    (encodeString stat.uid ++ (encodeString stat.gid ++
    encodeString stat.muid)))))))))

/- The record behind its byte length, cut to 16 bits. -/
def encodeStatPayload (stat : Stat) : Bytes :=
  u16le (UInt16.ofNat (statRecord stat).length) ++
    statRecord stat

@[simp] theorem length_encodeString (value : String) :
    (encodeString value).length =
      2 + value.utf8ByteSize := by
  simp [encodeString]

@[simp] theorem length_encodeQidBytes (qid : Qid) :
    (encodeQidBytes qid).length = 13 := by
  simp [encodeQidBytes]

theorem length_statRecord (stat : Stat) :
    (statRecord stat).length =
      47 + stat.name.utf8ByteSize + stat.uid.utf8ByteSize +
        stat.gid.utf8ByteSize + stat.muid.utf8ByteSize := by
  simp [statRecord]
  omega

theorem length_encodeStatPayload (stat : Stat) :
    (encodeStatPayload stat).length =
      2 + (statRecord stat).length := by
  simp [encodeStatPayload]

end Planten

------------------------------------------------------------
-- Decoders
------------------------------------------------------------

namespace Planten

/- The bytes of a little-endian word of a given width. -/
def word
    {α : Type}
    (width : Nat)
    (ofNat : Nat → α) : Decoder IoError α := do
  let buf ← Decoder.readExact IoError.eof width
  pure (ofNat (LittleEndian.value buf))

/- UTF-8 text behind a 16-bit length. -/
def text
    (invalid : String) : Decoder IoError String := do
  let len ← word 2 UInt16.ofNat
  let buf ← Decoder.readExact IoError.eof len.toNat
  match fromUtf8 buf with
  | some s => pure s
  | none => throw ⟨.invalidData, invalid⟩

def decodeU16 : Decoder IoError UInt16 :=
  word 2 UInt16.ofNat

def decodeU32 : Decoder IoError UInt32 :=
  word 4 UInt32.ofNat

def decodeU64 : Decoder IoError UInt64 :=
  word 8 UInt64.ofNat

def decodeString : Decoder IoError String :=
  text "invalid UTF-8 string"

def decodeQid : Decoder IoError Qid := do
  let qidBuf ← Decoder.readExact IoError.eof 13
  let version :=
    UInt32.ofNat
      (LittleEndian.value ((qidBuf.drop 1).take 4))
  let path :=
    UInt64.ofNat (LittleEndian.value (qidBuf.drop 5))
  pure ⟨qidBuf.headD 0, version, path⟩

/- The fields of a stat record, in order. -/
def statFields : Decoder IoError Stat := do
  let type_ ← decodeU16
  let dev ← decodeU32
  let qid ← decodeQid
  let mode ← decodeU32
  let atime ← decodeU32
  let mtime ← decodeU32
  let length ← decodeU64
  let name ← decodeString
  let uid ← decodeString
  let gid ← decodeString
  let muid ← decodeString
  pure ⟨type_, dev, qid, mode, atime, mtime, length,
    name, uid, gid, muid⟩

/-
  The record is cut out by its length first; bytes it has
  after the last field are ignored.
-/
def decodeStat : Decoder IoError Stat := do
  let statSize ← decodeU16
  let buffer ←
    Decoder.readExact IoError.eof statSize.toNat
  match statFields.run buffer with
  | .ok (stat, _) => pure stat
  | .error e => throw e

end Planten

------------------------------------------------------------
-- Values and Errors
------------------------------------------------------------

namespace Planten

open Decoder (FailsIn Yields yields_trivial)

/- The strings of a stat fit their length fields. -/
structure Stat.StringsFit (stat : Stat) : Prop where
  name : stat.name.utf8ByteSize ≤ 65535
  uid : stat.uid.utf8ByteSize ≤ 65535
  gid : stat.gid.utf8ByteSize ≤ 65535
  muid : stat.muid.utf8ByteSize ≤ 65535

/- A string behind a 16-bit length is below 64 KiB. -/
theorem yields_text (invalid : String) :
    Yields (text invalid)
      (fun s => s.utf8ByteSize ≤ 65535) := by
  refine (yields_trivial _).bind (fun len _ => ?_)
  have hTake :
      Yields (Decoder.readExact IoError.eof len.toNat)
        (fun buf => buf.length ≤ 65535) := by
    intro cursor buf rest hRun
    have hLt := len.toNat_lt
    rw [(Decoder.readExact_ok hRun).2]
    omega
  refine hTake.bind (fun buf hLength => ?_)
  cases hText : fromUtf8 buf with
  | none =>
      exact Decoder.yields_throw _
  | some s =>
      rw [← asBytes_of_fromUtf8 hText,
        length_asBytes] at hLength
      exact Decoder.yields_pure hLength

/- The strings of a decoded stat fit their length fields. -/
theorem yields_decodeStat :
    Yields decodeStat Stat.StringsFit := by
  have hFields : Yields statFields Stat.StringsFit := by
    refine (yields_trivial _).bind (fun type_ _ => ?_)
    refine (yields_trivial _).bind (fun dev _ => ?_)
    refine (yields_trivial _).bind (fun qid _ => ?_)
    refine (yields_trivial _).bind (fun mode _ => ?_)
    refine (yields_trivial _).bind (fun atime _ => ?_)
    refine (yields_trivial _).bind (fun mtime _ => ?_)
    refine (yields_trivial _).bind (fun length _ => ?_)
    refine (yields_text _).bind (fun name hName => ?_)
    refine (yields_text _).bind (fun uid hUid => ?_)
    refine (yields_text _).bind (fun gid hGid => ?_)
    refine (yields_text _).bind (fun muid hMuid => ?_)
    exact Decoder.yields_pure ⟨hName, hUid, hGid, hMuid⟩
  refine (yields_trivial _).bind (fun statSize _ => ?_)
  refine (yields_trivial _).bind (fun buffer _ => ?_)
  cases hRun : statFields.run buffer with
  | error e =>
      exact Decoder.yields_throw e
  | ok r =>
      exact Decoder.yields_pure
        (hFields buffer r.1 r.2 hRun)

/- The cursor ran dry, or a string was not UTF-8. -/
def IoError.EofOrInvalid
    (invalid : String)
    (err : IoError) : Prop :=
  err = IoError.eof ∨ err = ⟨.invalidData, invalid⟩

theorem IoError.eofOrInvalid_eof (invalid : String) :
    IoError.eof.EofOrInvalid invalid :=
  Or.inl rfl

theorem failsIn_word
    {α : Type}
    (invalid : String)
    (width : Nat)
    (ofNat : Nat → α) :
    FailsIn (word width ofNat)
      (IoError.EofOrInvalid invalid) :=
  (Decoder.failsIn_readExact
    (IoError.eofOrInvalid_eof invalid) width).bind
    (fun _ => Decoder.failsIn_pure _)

theorem failsIn_text (invalid : String) :
    FailsIn (text invalid)
      (IoError.EofOrInvalid invalid) := by
  refine (failsIn_word invalid 2 _).bind (fun len => ?_)
  refine (Decoder.failsIn_readExact
    (IoError.eofOrInvalid_eof invalid) _).bind
      (fun buf => ?_)
  cases fromUtf8 buf with
  | none =>
      exact Decoder.failsIn_throw (Or.inr rfl)
  | some s =>
      exact Decoder.failsIn_pure s

theorem failsIn_decodeQid (invalid : String) :
    FailsIn decodeQid (IoError.EofOrInvalid invalid) :=
  (Decoder.failsIn_readExact
    (IoError.eofOrInvalid_eof invalid) 13).bind
    (fun _ => Decoder.failsIn_pure _)

/- A stat record is short or holds an invalid string. -/
theorem failsIn_decodeStat :
    FailsIn decodeStat
      (IoError.EofOrInvalid "invalid UTF-8 string") := by
  have hFields :
      FailsIn statFields
        (IoError.EofOrInvalid "invalid UTF-8 string") := by
    refine (failsIn_word _ 2 _).bind (fun type_ => ?_)
    refine (failsIn_word _ 4 _).bind (fun dev => ?_)
    refine (failsIn_decodeQid _).bind (fun qid => ?_)
    refine (failsIn_word _ 4 _).bind (fun mode => ?_)
    refine (failsIn_word _ 4 _).bind (fun atime => ?_)
    refine (failsIn_word _ 4 _).bind (fun mtime => ?_)
    refine (failsIn_word _ 8 _).bind (fun length => ?_)
    refine (failsIn_text _).bind (fun name => ?_)
    refine (failsIn_text _).bind (fun uid => ?_)
    refine (failsIn_text _).bind (fun gid => ?_)
    exact (failsIn_text _).bind
      (fun muid => Decoder.failsIn_pure _)
  refine (failsIn_word _ 2 _).bind (fun statSize => ?_)
  refine (Decoder.failsIn_readExact
    (IoError.eofOrInvalid_eof _) _).bind
      (fun buffer => ?_)
  cases hRun : statFields.run buffer with
  | error e =>
      exact Decoder.failsIn_throw (hFields buffer e hRun)
  | ok r =>
      exact Decoder.failsIn_pure _

end Planten

------------------------------------------------------------
-- Round Trips
------------------------------------------------------------

namespace Planten

open Decoder (Decodes)

theorem decodes_word16 (x : UInt16) :
    Decodes (word 2 UInt16.ofNat) (u16le x) x := by
  have hRead :=
    (Decoder.decodes_readExact IoError.eof
      (length_u16le x)).bind_pure
      (f := fun buf =>
        UInt16.ofNat (LittleEndian.value buf))
  rwa [u16le, LittleEndian.ofNat_value_bytes16] at hRead

theorem decodes_word32 (x : UInt32) :
    Decodes (word 4 UInt32.ofNat) (u32le x) x := by
  have hRead :=
    (Decoder.decodes_readExact IoError.eof
      (length_u32le x)).bind_pure
      (f := fun buf =>
        UInt32.ofNat (LittleEndian.value buf))
  rwa [u32le, LittleEndian.ofNat_value_bytes32] at hRead

theorem decodes_word64 (x : UInt64) :
    Decodes (word 8 UInt64.ofNat) (u64le x) x := by
  have hRead :=
    (Decoder.decodes_readExact IoError.eof
      (length_u64le x)).bind_pure
      (f := fun buf =>
        UInt64.ofNat (LittleEndian.value buf))
  rwa [u64le, LittleEndian.ofNat_value_bytes64] at hRead

/- A string that fits its length field is read back. -/
theorem decodes_text
    (invalid : String)
    {s : String}
    (hFits : s.utf8ByteSize ≤ 65535) :
    Decodes (text invalid) (encodeString s) s := by
  have hLength :
      (UInt16.ofNat s.utf8ByteSize).toNat =
        s.utf8ByteSize := by
    simp
    omega
  refine (decodes_word16 _).bind ?_
  rw [hLength]
  have hRead :=
    Decoder.decodes_readExact IoError.eof
      (length_asBytes s)
  intro rest
  rw [StateT.run_bind, hRead rest]
  change StateT.run
    (match fromUtf8 (asBytes s) with
    | some s => (pure s : Decoder IoError String)
    | none => throw ⟨.invalidData, invalid⟩) rest = _
  rw [fromUtf8_asBytes]
  rfl

theorem decodes_decodeQid (qid : Qid) :
    Decodes decodeQid (encodeQidBytes qid) qid := by
  have hRead :=
    (Decoder.decodes_readExact IoError.eof
      (length_encodeQidBytes qid)).bind_pure
      (f := fun qidBuf : Bytes =>
        (⟨qidBuf.headD 0,
          UInt32.ofNat
            (LittleEndian.value ((qidBuf.drop 1).take 4)),
          UInt64.ofNat
            (LittleEndian.value (qidBuf.drop 5))⟩ : Qid))
  have hVersion :
      ((encodeQidBytes qid).drop 1).take 4 =
        u32le qid.version := by
    simp [encodeQidBytes]
  have hPath :
      (encodeQidBytes qid).drop 5 = u64le qid.path := by
    simp [encodeQidBytes]
  rw [hVersion, hPath, u32le, u64le,
    LittleEndian.ofNat_value_bytes32,
    LittleEndian.ofNat_value_bytes64] at hRead
  exact hRead

theorem decodes_statFields
    {stat : Stat}
    (hFit : stat.StringsFit) :
    Decodes statFields (statRecord stat) stat := by
  refine (decodes_word16 _).bind ?_
  refine (decodes_word32 _).bind ?_
  refine (decodes_decodeQid _).bind ?_
  refine (decodes_word32 _).bind ?_
  refine (decodes_word32 _).bind ?_
  refine (decodes_word32 _).bind ?_
  refine (decodes_word64 _).bind ?_
  refine (decodes_text _ hFit.name).bind ?_
  refine (decodes_text _ hFit.uid).bind ?_
  refine (decodes_text _ hFit.gid).bind ?_
  exact (decodes_text _ hFit.muid).bind_pure

/- A stat whose record fits 16 bits is read back. -/
theorem decodes_decodeStat
    {stat : Stat}
    (hFits : (statRecord stat).length ≤ 65535) :
    Decodes decodeStat (encodeStatPayload stat) stat := by
  have hLength := length_statRecord stat
  have hFields :=
    (decodes_statFields
      (show stat.StringsFit from
        ⟨by omega, by omega, by omega, by omega⟩)).run_nil
  have hSize :
      (UInt16.ofNat (statRecord stat).length).toNat =
        (statRecord stat).length := by
    simp
    omega
  refine (decodes_word16 _).bind ?_
  rw [hSize]
  have hRead :=
    Decoder.decodes_readExact IoError.eof
      (rfl : (statRecord stat).length = _)
  intro rest
  rw [StateT.run_bind, hRead rest]
  simp only [bind, Except.bind, hFields]
  rfl

/-
  A stat whose record does not fit 16 bits leaves bytes of
  it unread: the cut-off length takes less than was written.
-/
theorem decodeStat_run_of_oversize
    {stat stat' : Stat}
    {tail rest : Bytes}
    (hOversize : 65535 < (statRecord stat).length)
    (hRun :
      decodeStat.run (encodeStatPayload stat ++ tail) =
        .ok (stat', rest)) :
    tail.length < rest.length := by
  have hSize :
      (UInt16.ofNat (statRecord stat).length).toNat <
        (statRecord stat).length := by
    have hLt := UInt16.toNat_lt
      (UInt16.ofNat (statRecord stat).length)
    omega
  rw [encodeStatPayload, List.append_assoc] at hRun
  rcases Decoder.run_bind_ok hRun with
    ⟨size, cursor, hHead, hBuffer⟩
  have hWord :=
    decodes_word16
      (UInt16.ofNat (statRecord stat).length)
      (statRecord stat ++ tail)
  have hEq :
      (size, cursor) =
        (UInt16.ofNat (statRecord stat).length,
          statRecord stat ++ tail) :=
    Except.ok.inj (hHead.symm.trans hWord)
  cases hEq
  rcases Decoder.run_bind_ok hBuffer with
    ⟨buffer, after, hTake, hFields⟩
  have hSplit := Decoder.readExact_ok hTake
  have hAfter : rest = after := by
    cases hParsed : statFields.run buffer with
    | error e =>
        rw [hParsed] at hFields
        cases hFields
    | ok parsed =>
        rw [hParsed] at hFields
        cases hFields
        rfl
  have hLength := congrArg List.length hSplit.1
  rw [List.length_append, List.length_append, hSplit.2,
    ← hAfter] at hLength
  omega

end Planten
