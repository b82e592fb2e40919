import Planten.NineP.Requests
import Planten.RamFs.Effects

/-
  The server reads back the requests the client library
  writes.

  The two halves are separate code: the encoders of the
  client, and the field readers of the handlers.  For every
  request whose strings and counts fit their length fields,
  the fields read are the fields written.

  Key theorems include:
    * `Request.decode_version` to `Request.decode_wstat`
    * `decodes_names`
-/

------------------------------------------------------------
-- Field Readers
------------------------------------------------------------

namespace Planten

open Decoder (Decodes)

theorem decodes_readU8 (x : UInt8) :
    Decodes readU8 [x] x := by
  have hRead :=
    (Decoder.decodes_readExact IoError.eof
      (rfl : [x].length = 1)).bind_pure
      (f := fun buf =>
        UInt8.ofNat (LittleEndian.value buf))
  have hValue :
      UInt8.ofNat (LittleEndian.value [x]) = x := by
    simp [LittleEndian.value]
  rwa [hValue] at hRead

theorem decodes_versionFields
    (msize : UInt32)
    {version : String}
    (hFits : version.utf8ByteSize ≤ 65535) :
    Decodes versionFields (encodeVersionBody msize version)
      (msize, version) := by
  refine (decodes_word32 _).bind ?_
  exact (decodes_text _ hFits).bind_pure

theorem decodes_attachFields
    (fid : UInt32)
    (afid : Option UInt32)
    {uname aname : String}
    (hUname : uname.utf8ByteSize ≤ 65535)
    (hAname : aname.utf8ByteSize ≤ 65535) :
    Decodes attachFields
      (encodeAttachBody fid afid uname aname)
      (fid, afid.getD 0, uname, aname) := by
  refine (decodes_word32 _).bind ?_
  refine (decodes_word32 _).bind ?_
  refine (decodes_text _ hUname).bind ?_
  exact (decodes_text _ hAname).bind_pure

theorem decodes_createFields
    (fid : UInt32)
    {name : String}
    (perm : UInt32)
    (mode : UInt8)
    (hName : name.utf8ByteSize ≤ 65535) :
    Decodes createFields
      (encodeCreateBody fid name perm mode)
      (fid, name, perm, mode) := by
  refine (decodes_word32 _).bind ?_
  refine (decodes_text _ hName).bind ?_
  refine (decodes_word32 _).bind ?_
  exact (decodes_readU8 _).bind_pure

theorem decodes_openFields
    (fid : UInt32)
    (mode : UInt8) :
    Decodes openFields (encodeOpenBody fid mode)
      (fid, mode) := by
  refine (decodes_word32 _).bind ?_
  exact (decodes_readU8 _).bind_pure

theorem decodes_readFields
    (fid : UInt32)
    (offset : UInt64)
    (count : UInt32) :
    Decodes readFields (encodeReadBody fid offset count)
      (fid, offset, count) := by
  refine (decodes_word32 _).bind ?_
  refine (decodes_word64 _).bind ?_
  exact (decodes_word32 _).bind_pure

theorem decodes_writeFields
    (fid : UInt32)
    (offset : UInt64)
    {data : Bytes}
    (hFits : data.length < 2 ^ 32) :
    Decodes writeFields (encodeWriteBody fid offset data)
      (fid, offset, data) := by
  have hLength :
      data.length = (UInt32.ofNat data.length).toNat := by
    simp
    omega
  refine (decodes_word32 _).bind ?_
  refine (decodes_word64 _).bind ?_
  refine (decodes_word32 _).bind ?_
  exact (Decoder.decodes_readExact _ hLength).bind_pure

/- The fields of a walk leave its names to be read. -/
theorem run_walkFields
    (fid newfid : UInt32)
    (names : List String) :
    walkFields.run (encodeWalkBody fid newfid names) =
      .ok ((fid, newfid, UInt16.ofNat names.length),
        names.flatMap encodeString) := by
  have hFields :
      Decodes walkFields
        (u32le fid ++ (u32le newfid ++
          u16le (UInt16.ofNat names.length)))
        (fid, newfid, UInt16.ofNat names.length) := by
    refine (decodes_word32 _).bind ?_
    refine (decodes_word32 _).bind ?_
    exact (decodes_word16 _).bind_pure
  have hRun := hFields (names.flatMap encodeString)
  simp only [List.append_assoc] at hRun
  exact hRun

end Planten

------------------------------------------------------------
-- Requests
------------------------------------------------------------

namespace Planten

namespace Request

theorem decode_version
    (msize : UInt32)
    {version : String}
    (hFits : version.utf8ByteSize ≤ 65535) :
    decode TVERSION (encodeVersionBody msize version) =
      .ok (.tversion msize version) := by
  change (versionFields.run _).map _ = _
  rw [(decodes_versionFields msize hFits).run_nil]
  rfl

/- The body of an authentication request is not read. -/
theorem decode_auth (body : Bytes) :
    decode TAUTH body = .ok .tauth :=
  rfl

theorem decode_attach
    (fid : UInt32)
    (afid : Option UInt32)
    {uname aname : String}
    (hUname : uname.utf8ByteSize ≤ 65535)
    (hAname : aname.utf8ByteSize ≤ 65535) :
    decode TATTACH (encodeAttachBody fid afid uname aname) =
      .ok (.tattach fid (afid.getD 0) uname aname) := by
  change (attachFields.run _).map _ = _
  rw [(decodes_attachFields fid afid hUname hAname).run_nil]
  rfl

/- The body of a flush request is not read. -/
theorem decode_flush (body : Bytes) :
    decode TFLUSH body = .ok .tflush :=
  rfl

theorem decode_walk
    (fid newfid : UInt32)
    (names : List String) :
    decode TWALK (encodeWalkBody fid newfid names) =
      .ok (.twalk fid newfid (UInt16.ofNat names.length)
        (names.flatMap encodeString)) := by
  change (walkFields.run
    (encodeWalkBody fid newfid names)).map
      (fun r => Request.twalk r.1.1 r.1.2.1 r.1.2.2 r.2) = _
  rw [run_walkFields]
  rfl

theorem decode_open
    (fid : UInt32)
    (mode : UInt8) :
    decode TOPEN (encodeOpenBody fid mode) =
      .ok (.topen fid mode) := by
  change (openFields.run (encodeOpenBody fid mode)).map
    (fun r => Request.topen r.1.1 r.1.2) = _
  rw [(decodes_openFields fid mode).run_nil]
  rfl

theorem decode_create
    (fid : UInt32)
    {name : String}
    (perm : UInt32)
    (mode : UInt8)
    (hName : name.utf8ByteSize ≤ 65535) :
    decode TCREATE (encodeCreateBody fid name perm mode) =
      .ok (.tcreate fid name perm mode) := by
  change (createFields.run _).map _ = _
  rw [(decodes_createFields fid perm mode hName).run_nil]
  rfl

theorem decode_read
    (fid : UInt32)
    (offset : UInt64)
    (count : UInt32) :
    decode TREAD (encodeReadBody fid offset count) =
      .ok (.tread fid offset count) := by
  change (readFields.run
    (encodeReadBody fid offset count)).map
      (fun r => Request.tread r.1.1 r.1.2.1 r.1.2.2) = _
  rw [(decodes_readFields fid offset count).run_nil]
  rfl

theorem decode_write
    (fid : UInt32)
    (offset : UInt64)
    {data : Bytes}
    (hFits : data.length < 2 ^ 32) :
    decode TWRITE (encodeWriteBody fid offset data) =
      .ok (.twrite fid offset data) := by
  change (writeFields.run _).map _ = _
  rw [(decodes_writeFields fid offset hFits).run_nil]
  rfl

/- A request that names a fid only. -/
theorem run_readU32 (fid : UInt32) (rest : Bytes) :
    readU32.run (u32le fid ++ rest) = .ok (fid, rest) :=
  decodes_word32 fid rest

theorem decode_clunk (fid : UInt32) :
    decode TCLUNK (encodeClunkBody fid) =
      .ok (.tclunk fid) := by
  change (readU32.run (u32le fid)).map
    (fun r => Request.tclunk r.1) = _
  rw [← List.append_nil (u32le fid), run_readU32]
  rfl

theorem decode_remove (fid : UInt32) :
    decode TREMOVE (encodeRemoveBody fid) =
      .ok (.tremove fid) := by
  change (readU32.run (u32le fid)).map
    (fun r => Request.tremove r.1) = _
  rw [← List.append_nil (u32le fid), run_readU32]
  rfl

theorem decode_stat (fid : UInt32) :
    decode TSTAT (encodeStatBody fid) =
      .ok (.tstat fid) := by
  change (readU32.run (u32le fid)).map
    (fun r => Request.tstat r.1) = _
  rw [← List.append_nil (u32le fid), run_readU32]
  rfl

/- The record of a wstat is left to be read. -/
theorem decode_wstat
    (fid : UInt32)
    (stat : Stat) :
    decode TWSTAT (encodeWstatBody fid stat) =
      .ok (.twstat fid (encodeStatPayload stat)) := by
  change (readU32.run
    (u32le fid ++ encodeStatPayload stat)).map
      (fun r => Request.twstat r.1 r.2) = _
  rw [run_readU32]
  rfl

end Request

/- The names of a walk are read back one by one. -/
theorem decodes_names
    {names : List String}
    (hFits :
      ∀ name ∈ names, name.utf8ByteSize ≤ 65535) :
    Decoder.Decodes (Decoder.many readString names.length)
      (names.flatMap encodeString) names := by
  apply Decoder.decodes_many
  intro name hMem
  exact decodes_text _ (hFits name hMem)

end Planten
