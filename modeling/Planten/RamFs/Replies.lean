import Planten.RamFs.Addressing

/-
  Which replies are read back.

  Every reply is written by one encoder of its fields, and
  three of its lengths are cut: that of a string and of a
  stat record to 16 bits, that of a frame to 32.  A reply is
  read back, by the decoder of its type and to the last
  byte, exactly when nothing is cut.

  Key definitions include:
    * `Reply.decoder`
    * `Reply.Fits`
    * `Reply.ReadBack`
    * `Request.Cuts`

  Key theorems include:
    * `decodes_body`
    * `Reply.readBack_iff`
    * `Server.readBack_iff_not_cuts`
-/

------------------------------------------------------------
-- Decoders of Replies
------------------------------------------------------------

namespace Planten

namespace Reply

/- The fields a reply of a type holds. -/
def decoder (msgType : UInt8) : Decoder IoError Reply :=
  if msgType = RVERSION then do
    let msize ← decodeU32
    let version ← decodeString
    pure (rversion msize version)
  else if msgType = RAUTH then do
    let aqid ← decodeQid
    pure (rauth aqid)
  else if msgType = RATTACH then do
    let qid ← decodeQid
    pure (rattach qid)
  else if msgType = RERROR then do
    let message ← decodeString
    pure (rerror message)
  else if msgType = RFLUSH then
    pure rflush
  else if msgType = RWALK then do
    let nwqid ← decodeU16
    let qids ← Decoder.many decodeQid nwqid.toNat
    pure (rwalk qids)
  else if msgType = ROPEN then do
    let qid ← decodeQid
    let iounit ← decodeU32
    pure (ropen qid iounit)
  else if msgType = RCREATE then do
    let qid ← decodeQid
    let iounit ← decodeU32
    pure (rcreate qid iounit)
  else if msgType = RREAD then do
    let dataLen ← decodeU32
    let data ← Decoder.readExact IoError.eof dataLen.toNat
    pure (rread data)
  else if msgType = RWRITE then do
    let count ← decodeU32
    pure (rwrite count)
  else if msgType = RCLUNK then
    pure rclunk
  else if msgType = RREMOVE then
    pure rremove
  else if msgType = RSTAT then do
    let stat ← decodeStat
    pure (rstat stat)
  else if msgType = RWSTAT then
    pure rwstat
  else if msgType = RCLONE then
    pure rclone
  else
    throw ⟨.invalidData, "unknown message type"⟩

/- The lengths of the fields of a reply are not cut. -/
def Fits : Reply → Prop
| rversion _ version => version.utf8ByteSize ≤ 65535
| rerror message => message.utf8ByteSize ≤ 65535
| rwalk qids => qids.length ≤ 65535
| rread data => data.length < 2 ^ 32
| rstat stat => (statRecord stat).length ≤ 65535
| _ => True

instance (reply : Reply) : Decidable reply.Fits := by
  cases reply <;> unfold Fits <;> infer_instance

end Reply

open Decoder (Decodes)

/- A reply whose lengths are not cut is read back. -/
theorem decodes_body
    {reply : Reply}
    (hFits : reply.Fits) :
    Decodes (Reply.decoder reply.msgType) reply.body
      reply := by
  cases reply with
  | rversion msize version =>
      refine (decodes_word32 _).bind ?_
      exact (decodes_text _ hFits).bind_pure
  | rauth qid | rattach qid =>
      exact (decodes_decodeQid _).bind_pure
  | rerror message =>
      exact (decodes_text _ hFits).bind_pure
  | rwalk qids =>
      have hCount :
          (UInt16.ofNat qids.length).toNat =
            qids.length := by
        simp only [Reply.Fits] at hFits
        simp
        omega
      refine (decodes_word16 _).bind ?_
      rw [hCount]
      exact (Decoder.decodes_many
        (fun qid _ => decodes_decodeQid qid)).bind_pure
  | ropen qid iounit | rcreate qid iounit =>
      refine (decodes_decodeQid _).bind ?_
      exact (decodes_word32 _).bind_pure
  | rread data =>
      have hLength :
          data.length = (UInt32.ofNat data.length).toNat := by
        simp only [Reply.Fits] at hFits
        simp
        omega
      refine (decodes_word32 _).bind ?_
      exact (Decoder.decodes_readExact _ hLength).bind_pure
  | rwrite count =>
      exact (decodes_word32 _).bind_pure
  | rstat stat =>
      exact (decodes_decodeStat hFits).bind_pure
  | rflush | rclunk | rremove | rwstat | rclone =>
      exact Decoder.decodes_pure _

end Planten

------------------------------------------------------------
-- Cut Lengths
------------------------------------------------------------

namespace Planten

/- A string that does not fit leaves bytes unread. -/
theorem text_run_of_oversize
    {invalid s s' : String}
    {rest : Bytes}
    (hOversize : 65535 < s.utf8ByteSize)
    (hRun :
      (text invalid).run (encodeString s) =
        .ok (s', rest)) :
    rest ≠ [] := by
  have hSize :
      (UInt16.ofNat s.utf8ByteSize).toNat <
        s.utf8ByteSize := by
    have hLt := UInt16.toNat_lt (UInt16.ofNat s.utf8ByteSize)
    omega
  rcases Decoder.run_bind_ok hRun with
    ⟨len, cursor, hLen, hText⟩
  have hHead :=
    decodes_word16 (UInt16.ofNat s.utf8ByteSize) (asBytes s)
  have hEq :
      (len, cursor) =
        (UInt16.ofNat s.utf8ByteSize, asBytes s) :=
    Except.ok.inj (hLen.symm.trans hHead)
  cases hEq
  rcases Decoder.run_bind_ok hText with
    ⟨buf, tail, hTake, hValue⟩
  have hSplit := Decoder.readExact_ok hTake
  have hTail : tail = rest := by
    cases hDecode : fromUtf8 buf with
    | none =>
        rw [hDecode] at hValue
        cases hValue
    | some value =>
        rw [hDecode] at hValue
        cases hValue
        rfl
  intro hNil
  have hLength := congrArg List.length hSplit.1
  rw [length_asBytes, List.length_append, hSplit.2, hTail,
    hNil] at hLength
  simp only [List.length_nil] at hLength
  omega

/-
  A frame that is read to its end has a body that fits the
  size field.
-/
theorem fits_of_readFrom
    {msgType : UInt8}
    {tag : UInt16}
    {body frame : Bytes}
    {msg : RawMessage}
    (hFrame : buildFrame msgType tag body = .ok frame)
    (hRun : RawMessage.readFrom.run frame = .ok (msg, [])) :
    7 + body.length < 2 ^ 32 := by
  rw [buildFrame, bind_eq_ok_iff] at hFrame
  rcases hFrame with ⟨size, hSum, hFrame⟩
  cases hFrame
  unfold u32Add at hSum
  split at hSum
  · rename_i hSmall
    cases hSum
    have hSize :
        (7 + UInt32.ofNat body.length).toNat =
          7 + body.length % 2 ^ 32 := by
      rw [UInt32.toNat_add, Nat.mod_eq_of_lt hSmall]
      simp
    have hSum : 7 + body.length % 2 ^ 32 < 2 ^ 32 := by
      simpa using hSmall
    rcases Decoder.run_bind_ok hRun with
      ⟨size, cursor, hWord, hRun⟩
    have hHead :=
      decodes_word32 (7 + UInt32.ofNat body.length)
        (msgType :: (u16le tag ++ body))
    cases hHead.symm.trans hWord
    split at hRun
    · cases hRun
    · rcases Decoder.run_bind_ok hRun with
        ⟨header, cursor, hHeader, hRun⟩
      have hTake :=
        Decoder.decodes_readExact IoError.eof
          (show (msgType :: u16le tag).length = 3 by simp)
          body
      cases hTake.symm.trans hHeader
      rcases Decoder.run_bind_ok hRun with
        ⟨bytes, rest, hBody, hRun⟩
      cases hRun
      have hSplit := Decoder.readExact_ok hBody
      rw [List.append_nil] at hSplit
      have hLength := hSplit.2
      rw [← hSplit.1, hSize] at hLength
      omega
  · cases hSum

namespace Reply

/- The frame of a reply is read to its end as that reply. -/
def ReadBack
    (reply : Reply)
    (tag : UInt16)
    (frame : Bytes) : Prop :=
  ∃ size body,
    RawMessage.readFrom.run frame =
        .ok (⟨size, reply.msgType, tag, body⟩, []) ∧
      (decoder reply.msgType).run body = .ok (reply, [])

/- A cut length leaves bytes of the body unread. -/
theorem fits_of_run
    {reply : Reply}
    (hSize : 7 + reply.body.length < 2 ^ 32)
    (hRun :
      (decoder reply.msgType).run reply.body =
        .ok (reply, [])) :
    reply.Fits := by
  by_contra hCut
  cases reply with
  | rversion msize version =>
      rcases Decoder.run_bind_ok hRun with
        ⟨msize', cursor, hWord, hRun⟩
      cases (decodes_word32 msize _).symm.trans hWord
      rcases Decoder.run_bind_ok hRun with
        ⟨version', rest, hText, hRun⟩
      cases hRun
      exact text_run_of_oversize (not_le.mp hCut) hText rfl
  | rerror message =>
      rcases Decoder.run_bind_ok hRun with
        ⟨message', rest, hText, hRun⟩
      cases hRun
      exact text_run_of_oversize (not_le.mp hCut) hText rfl
  | rwalk qids =>
      rcases Decoder.run_bind_ok hRun with
        ⟨nwqid, cursor, hWord, hRun⟩
      cases (decodes_word16 _ _).symm.trans hWord
      rcases Decoder.run_bind_ok hRun with
        ⟨qids', rest, hMany, hRun⟩
      cases hRun
      have hLength := Decoder.length_of_many hMany
      have hLt := (UInt16.ofNat qids.length).toNat_lt
      simp only [Fits] at hCut
      omega
  | rread data =>
      simp only [body, List.length_append,
        length_u32le] at hSize
      simp only [Fits] at hCut
      omega
  | rstat stat =>
      rcases Decoder.run_bind_ok hRun with
        ⟨stat', rest, hStat, hRun⟩
      cases hRun
      rw [body, ← List.append_nil (encodeStatPayload stat)]
        at hStat
      exact lt_irrefl _
        (decodeStat_run_of_oversize (not_le.mp hCut) hStat)
  | _ =>
      exact hCut trivial

/-
  A reply is read back exactly when neither its fields nor
  its frame are cut.
-/
theorem readBack_iff
    {reply : Reply}
    {tag : UInt16}
    {frame : Bytes}
    (hFrame : reply.frame tag = .ok frame) :
    reply.ReadBack tag frame ↔
      7 + reply.body.length < 2 ^ 32 ∧ reply.Fits := by
  constructor
  · rintro ⟨size, body, hRead, hDecode⟩
    have hSize := fits_of_readFrom hFrame hRead
    refine ⟨hSize, fits_of_run hSize ?_⟩
    rw [frame_of_fits hSize] at hFrame
    cases hFrame
    have hWhole :=
      (decodes_readFrom reply.msgType tag hSize).run_nil
    cases hWhole.symm.trans hRead
    exact hDecode
  · rintro ⟨hSize, hFits⟩
    rw [frame_of_fits hSize] at hFrame
    cases hFrame
    refine ⟨frameSize reply.body, reply.body, ?_,
      (decodes_body hFits).run_nil⟩
    exact (decodes_readFrom reply.msgType tag hSize).run_nil

end Reply

end Planten

------------------------------------------------------------
-- Where Walks Stop
------------------------------------------------------------

namespace Planten

/- The first name of a walk that is not found. -/
def stopName (fs : RamFs) :
    Nat → Bytes → String → Option String
| 0, _, _ => none
| n + 1, cursor, path =>
    match readString.run cursor with
    | .error _ => none
    | .ok (name, cursor) =>
        match resolveStep path name with
        | none => some name
        | some next =>
            if (fs.stat next).isSome then
              stopName fs n cursor next
            else
              some name

variable {hasher : Hasher} {fs : RamFs}

theorem stopName_of_ok
    {n : Nat}
    {cursor : Bytes}
    {path : String}
    {qids : List Qid}
    {found : String × List Qid}
    (hNames :
      walkNames hasher fs n cursor path qids =
        .ok (.ok found)) :
    stopName fs n cursor path = none := by
  induction n generalizing cursor path qids with
  | zero =>
      rfl
  | succ n ih =>
      rw [walkNames, bind_eq_ok_iff] at hNames
      rcases hNames with ⟨⟨name, rest⟩, hName, hNames⟩
      simp only at hNames
      rw [stopName, hName]
      simp only
      split at hNames
      · rename_i next hStep
        split at hNames
        · rename_i inode hStat
          rw [hStep]
          simp only [hStat, Option.isSome_some, if_true]
          exact ih hNames
        · cases hNames
      · cases hNames

/- The text of a failed walk is 35 bytes around the name. -/
theorem stopName_of_error
    {n : Nat}
    {cursor : Bytes}
    {path message : String}
    {qids : List Qid}
    (hNames :
      walkNames hasher fs n cursor path qids =
        .ok (.error message)) :
    ∃ name,
      stopName fs n cursor path = some name ∧
        (65535 < message.utf8ByteSize ↔
          65500 < name.utf8ByteSize) := by
  induction n generalizing cursor path qids with
  | zero =>
      cases hNames
  | succ n ih =>
      rw [walkNames, bind_eq_ok_iff] at hNames
      rcases hNames with ⟨⟨name, rest⟩, hName, hNames⟩
      simp only at hNames
      rw [stopName, hName]
      simp only
      split at hNames
      · rename_i next hStep
        rw [hStep]
        split at hNames
        · rename_i inode hStat
          simp only [hStat, Option.isSome_some, if_true]
          exact ih hNames
        · rename_i hStat
          cases hNames
          refine ⟨name, by simp [hStat], ?_⟩
          have hBefore :
              "walk failed: component '".utf8ByteSize = 24 :=
            rfl
          have hAfter : "' not found".utf8ByteSize = 11 := rfl
          rw [String.utf8ByteSize_append,
            String.utf8ByteSize_append]
          omega
      · rename_i hStep
        cases hNames
        rw [hStep]
        refine ⟨name, rfl, ?_⟩
        rw [(resolveStep_eq_none_iff _ _).mp hStep]
        decide

end Planten

------------------------------------------------------------
-- Requests Whose Replies Are Cut
------------------------------------------------------------

namespace Planten

/-
  A request whose reply does not fit: a walk that stops at a
  long name, a stat of a node with long strings, and a read
  of almost four gigabytes.
-/
inductive Request.Cuts
    (hasher : Hasher)
    (fs : RamFs)
    (fids : FidTable) : Request → Prop where
| walk
    {fid newfid : UInt32} {nwname : UInt16}
    {names : Bytes} {name : String}
    (hStops :
      stopName fs nwname.toNat names
        (walkBaseState hasher fs fids fid).path =
          some name)
    (hLong : 65500 < name.utf8ByteSize) :
    Cuts hasher fs fids (.twalk fid newfid nwname names)
| stat
    {fid : UInt32} {state : FidState} {attrs : Attrs}
    (hFid : fids.lookup fid = some state)
    (hNode : fs.view (components state.path) = some attrs)
    (hLong :
      65535 < 47 + attrs.name.utf8ByteSize +
        attrs.uid.utf8ByteSize + attrs.gid.utf8ByteSize +
        attrs.uid.utf8ByteSize) :
    Cuts hasher fs fids (.tstat fid)
| read
    {fid : UInt32} {offset : UInt64} {count : UInt32}
    {state : FidState} {mode : UInt8} {data : Bytes}
    (hFid : fids.lookup fid = some state)
    (hMode : state.openMode = some mode)
    (hAllowed : modeAllowsRead mode = true)
    (hData : readData hasher fs state.path = .ok data)
    (hLong :
      2 ^ 32 - 11 ≤
        min count.toNat (data.length - offset.toNat)) :
    Cuts hasher fs fids (.tread fid offset count)

variable {hasher : Hasher} {clock : Clock}
variable {fs fs' : RamFs} {fids fids' : FidTable}
variable {req : Request}

/- A refusal is cut when its text is, in a walk. -/
theorem Refusal.fits_iff
    {message : String}
    (hRefusal : Refusal hasher fs fids req message) :
    message.utf8ByteSize ≤ 65535 ↔
      ¬ req.Cuts hasher fs fids := by
  have hShort
      (hBound : message.utf8ByteSize ≤ 64)
      (hUncut : ¬ req.Cuts hasher fs fids) :
      message.utf8ByteSize ≤ 65535 ↔
        ¬ req.Cuts hasher fs fids :=
    iff_of_true (hBound.trans (by decide)) hUncut
  cases hRefusal with
  | unsupported =>
      exact hShort (by decide) (by rintro ⟨⟩)
  | unknownFid hSource hNone =>
      apply hShort (by decide)
      intro hCuts
      cases hCuts with
      | walk hStops hLong =>
          cases hSource
      | stat hFid hNode hLong =>
          cases hSource
          cases hFid.symm.trans hNone
      | read hFid hMode hAllowed hData hLong =>
          cases hSource
          cases hFid.symm.trans hNone
  | createPath hFid hStep | createExists hFid hStep hExists
  | writeNotOpen hFid hMode | writeMode hFid hMode hDenied
  | openMissing hFid hNone | wstatFailed hFid hRecord hOp =>
      exact hShort (by decide) (by rintro ⟨⟩)
  | wstatFormat hFid hRecord =>
      exact hShort (short_wstatFormat hRecord)
        (by rintro ⟨⟩)
  | walkName hNames =>
      rcases stopName_of_error hNames with
        ⟨name, hStops, hLong⟩
      rw [← not_lt, hLong, not_iff_not]
      constructor
      · exact fun hName => .walk hStops hName
      · intro hCuts
        cases hCuts with
        | walk hStops' hName =>
            cases hStops.symm.trans hStops'
            exact hName
  | walkTarget hNames hTarget =>
      apply hShort (short_walkTarget hTarget)
      intro hCuts
      cases hCuts with
      | walk hStops hLong =>
          cases (stopName_of_ok hNames).symm.trans hStops
  | statMissing hFid hNone =>
      apply hShort (by decide)
      intro hCuts
      cases hCuts with
      | stat hFid' hNode hLong =>
          cases hFid.symm.trans hFid'
          rw [(fs.stat_eq_none_iff _).mp hNone] at hNode
          cases hNode
  | readNotOpen hFid hMode =>
      apply hShort (by decide)
      intro hCuts
      cases hCuts with
      | read hFid' hMode' hAllowed hData hLong =>
          cases hFid.symm.trans hFid'
          cases hMode.symm.trans hMode'
  | readMode hFid hMode hDenied =>
      apply hShort (by decide)
      intro hCuts
      cases hCuts with
      | read hFid' hMode' hAllowed hData hLong =>
          cases hFid.symm.trans hFid'
          cases hMode.symm.trans hMode'
          cases hDenied.symm.trans hAllowed
  | readData hFid hMode hAllowed hData =>
      apply hShort (short_readData hData)
      intro hCuts
      cases hCuts with
      | read hFid' hMode' hAllowed' hData' hLong =>
          cases hFid.symm.trans hFid'
          cases hData.symm.trans hData'

end Planten

------------------------------------------------------------
-- Effects
------------------------------------------------------------

namespace Planten

variable {hasher : Hasher} {clock : Clock}
variable {fs fs' : RamFs} {fids fids' : FidTable}
variable {req : Request}

/- The answer to a read fits unless the read is cut. -/
theorem fits_of_read_iff
    {fid : UInt32}
    {offset : UInt64}
    {count : UInt32}
    {state : FidState}
    {mode : UInt8}
    {data chunk : Bytes}
    (hFid : fids.lookup fid = some state)
    (hMode : state.openMode = some mode)
    (hAllowed : modeAllowsRead mode = true)
    (hData : readData hasher fs state.path = .ok data)
    (hWindow :
      readWindow .dev data offset count = .ok chunk) :
    (7 + (Reply.rread chunk).body.length < 2 ^ 32 ∧
        (Reply.rread chunk).Fits) ↔
      ¬ (Request.tread fid offset count).Cuts hasher fs
          fids := by
  rw [readWindow_eq] at hWindow
  split at hWindow
  · cases hWindow
  · cases hWindow
    have hCount := count.toNat_lt
    have hLength :
        ((data.drop offset.toNat).take
          count.toNat).length =
          min count.toNat (data.length - offset.toNat) := by
      simp
    simp only [Reply.body, Reply.Fits,
      List.length_append, length_u32le, hLength]
    constructor
    · rintro ⟨hSize, _⟩ hCuts
      cases hCuts with
      | read hFid' hMode' hAllowed' hData' hLong =>
          cases hFid.symm.trans hFid'
          cases hData.symm.trans hData'
          omega
    · intro hUncut
      have hShort :
          ¬ 2 ^ 32 - 11 ≤
            min count.toNat
              (data.length - offset.toNat) :=
        fun hLong =>
          hUncut (.read hFid hMode hAllowed hData hLong)
      omega

/- The answer to a stat fits unless the stat is cut. -/
theorem fits_of_stat_iff
    {fid : UInt32}
    {state : FidState}
    {inode : Inode}
    (hFid : fids.lookup fid = some state)
    (hStat : fs.stat state.path = some inode) :
    (7 +
          (Reply.rstat (inodeToStat hasher state.path
            inode)).body.length < 2 ^ 32 ∧
        (Reply.rstat (inodeToStat hasher state.path
          inode)).Fits) ↔
      ¬ (Request.tstat fid).Cuts hasher fs fids := by
  have hNode := RamFs.view_of_stat hStat
  simp only [Reply.body, Reply.Fits,
    length_encodeStatPayload, length_statRecord,
    inodeToStat]
  constructor
  · rintro ⟨_, hFits⟩ hCuts
    cases hCuts with
    | stat hFid' hNode' hLong =>
        cases hFid.symm.trans hFid'
        cases hNode.symm.trans hNode'
        omega
  · intro hUncut
    have hShort :
        ¬ 65535 < 47 + inode.val.name.utf8ByteSize +
          inode.val.uid.utf8ByteSize +
          inode.val.gid.utf8ByteSize +
          inode.val.uid.utf8ByteSize :=
      fun hLong => hUncut (.stat hFid hNode hLong)
    omega

/- A reply fits exactly when its request does not cut it. -/
theorem Effect.fits_iff
    {reply : Reply}
    (hEffect :
      Effect hasher clock fs fids req fs' fids' reply) :
    (7 + reply.body.length < 2 ^ 32 ∧ reply.Fits) ↔
      ¬ req.Cuts hasher fs fids := by
  have hFixed
      (hSmall : reply.body.length ≤ 2 ^ 20)
      (hFits : reply.Fits)
      (hUncut : ¬ req.Cuts hasher fs fids) :
      (7 + reply.body.length < 2 ^ 32 ∧ reply.Fits) ↔
        ¬ req.Cuts hasher fs fids :=
    iff_of_true ⟨by omega, hFits⟩ hUncut
  cases hEffect with
  | version =>
      exact hFixed (Nat.le_of_lt small_rversion)
        (by decide : "9P2000".utf8ByteSize ≤ 65535)
        (by rintro ⟨⟩)
  | auth | flush | attach | opened hFid hStat
  | create hFid hStep hFresh hOp hStat
  | write hFid hMode hAllowed hOp | clunk | remove hFid hOp
  | wstat hFid hRecord hOp | clone hFid =>
      exact hFixed (by simp [Reply.body]) trivial
        (by rintro ⟨⟩)
  | removeFailed hFid hOp =>
      exact hFixed (by simp [Reply.body]; decide)
        (by decide : "remove failed".utf8ByteSize ≤ 65535)
        (by rintro ⟨⟩)
  | walk hNames hTarget =>
      rename_i fid newfid nwname names path qids newQid
      have hCount := length_walkNames hNames
      have hLt := nwname.toNat_lt
      rw [List.length_nil] at hCount
      have hFits : qids.length ≤ 65535 := by
        omega
      refine hFixed (Nat.le_of_lt (small_rwalk hFits)) hFits
        ?_
      intro hCuts
      cases hCuts with
      | walk hStops hLong =>
          cases (stopName_of_ok hNames).symm.trans hStops
  | read hFid hMode hAllowed hData hWindow =>
      exact fits_of_read_iff hFid hMode hAllowed hData
        hWindow
  | stat hFid hStat =>
      exact fits_of_stat_iff hFid hStat
  | refused hRefusal =>
      rw [← hRefusal.fits_iff]
      simp only [Reply.body, Reply.Fits,
        length_encodeString]
      constructor
      · exact And.right
      · exact fun hFits => ⟨by omega, hFits⟩

end Planten

------------------------------------------------------------
-- Servers
------------------------------------------------------------

namespace Planten

namespace Server

/- What is sent is the frame of the reply. -/
theorem sent_of_step
    {hasher : Hasher}
    {srv srv' : Server}
    {conn : Nat}
    {msgType : UInt8}
    {tag : UInt16}
    {body : Bytes}
    {clock : Clock}
    {reply : Reply}
    (hStep :
      Step hasher srv (.request conn msgType tag body clock)
        (some reply) srv') :
    ∃ frame,
      reply.frame tag = .ok frame ∧
        srv.sent hasher
            (.request conn msgType tag body clock) =
          frame := by
  cases hStep with
  | served hConn hDecode hEffect hFrame hSent =>
      exact ⟨_, hFrame, hSent⟩

/- The event is a request whose reply is cut. -/
def Cuts
    (hasher : Hasher)
    (srv : Server)
    (event : Event) : Prop :=
  ∃ clock fids req,
    srv.Asks event clock fids req ∧
      req.Cuts hasher srv.ramfs fids

theorem not_cuts_of_decode
    {hasher : Hasher}
    {srv : Server}
    {conn : Nat}
    {msgType : UInt8}
    {tag : UInt16}
    {body : Bytes}
    {clock : Clock}
    {req : Request}
    (hDecode : Request.decode msgType body = .ok req)
    (hUncut :
      ∀ fids,
        srv.conns conn = some fids →
          ¬ req.Cuts hasher srv.ramfs fids) :
    ¬ srv.Cuts hasher
      (.request conn msgType tag body clock) := by
  rintro ⟨_, fids, _, ⟨_, _, _, _, hEq, hConn, hDecode'⟩,
    hCuts⟩
  cases hEq
  cases hDecode.symm.trans hDecode'
  exact hUncut fids hConn hCuts

/-
  In every state of the server, the frame that answers a
  request is read to its end as the reply exactly when the
  request does not cut it.
-/
theorem readBack_iff_not_cuts
    {hasher : Hasher}
    {srv srv' : Server}
    {conn : Nat}
    {msgType : UInt8}
    {tag : UInt16}
    {body : Bytes}
    {clock : Clock}
    {reply : Reply}
    (hStep :
      Step hasher srv (.request conn msgType tag body clock)
        (some reply) srv') :
    reply.ReadBack tag
        (srv.sent hasher
          (.request conn msgType tag body clock)) ↔
      ¬ srv.Cuts hasher
        (.request conn msgType tag body clock) := by
  cases hStep with
  | served hConn hDecode hEffect hFrame hSent =>
      rw [hSent, Reply.readBack_iff hFrame,
        hEffect.fits_iff, not_iff_not]
      constructor
      · intro hCuts
        exact ⟨_, _, _,
          ⟨_, _, _, _, rfl, hConn, hDecode⟩, hCuts⟩
      · rintro ⟨_, _, _, hAsks, hCuts⟩
        rcases hAsks.eq_of_decode _ _ hConn hDecode with
          ⟨rfl, rfl, rfl⟩
        exact hCuts

/- A walk that stops is answered with the text that says so. -/
theorem step_of_stopped
    {hasher : Hasher}
    {srv : Server}
    (hLock : srv.poisoned = false)
    {conn : Nat}
    {fids : FidTable}
    {fid newfid : UInt32}
    {nwname : UInt16}
    {names : Bytes}
    {message : String}
    {msgType : UInt8}
    {body : Bytes}
    (hConn : srv.conns conn = some fids)
    (hDecode :
      Request.decode msgType body =
        .ok (.twalk fid newfid nwname names))
    (hNames :
      walkNames hasher srv.ramfs nwname.toNat names
        (walkBaseState hasher srv.ramfs fids fid).path [] =
          .ok (.error message))
    (tag : UInt16)
    (clock : Clock) :
    Step hasher srv (.request conn msgType tag body clock)
      (some (.rerror message))
      (srv.step hasher
        (.request conn msgType tag body clock)) := by
  rcases served_of_safe hConn hDecode
    (fun _ _ => Hazard.not_walk hLock)
    (by
      rintro _ _ _ _ err ⟨⟩ hError
      cases hNames.symm.trans hError) with
    ⟨fs, fids', reply, hEffect, hStep, _, _⟩
  have hReply : reply = .rerror message := by
    cases hEffect with
    | walk hNames' hTarget =>
        cases hNames.symm.trans hNames'
    | refused hRefusal =>
        cases hRefusal with
        | unknownFid hSource hNone =>
            cases hSource
        | walkName hNames' =>
            cases hNames.symm.trans hNames'
            rfl
        | walkTarget hNames' hTarget =>
            cases hNames.symm.trans hNames'
  rwa [hReply] at hStep

/- The stat of the root is answered. -/
theorem readBack_of_rootStat :
    ∃ reply : Reply,
      reply.msgType = RSTAT ∧
        (reply.ReadBack 0
            ((Run.final (step (fun _ _ => 0))
              (start (RamFs.fresh 0)) attached).sent
                (fun _ _ => 0)
                (.request 0 TSTAT 0 (encodeStatBody 0)
                  (fun _ => 0))) ↔
          ¬ (Run.final (step (fun _ _ => 0))
              (start (RamFs.fresh 0)) attached).Cuts
                (fun _ _ => 0)
                (.request 0 TSTAT 0 (encodeStatBody 0)
                  (fun _ => 0))) := by
  rcases step_spec (fun _ _ => 0)
    (Run.final (step (fun _ _ => 0))
      (start (RamFs.fresh 0)) attached)
    (.request 0 TSTAT 0 (encodeStatBody 0) (fun _ => 0))
    with
    ⟨reply, hStep, hType⟩
  have hStat :
      (Run.final (step (fun _ _ => 0))
        (start (RamFs.fresh 0)) attached).replyType
          (fun _ _ => 0)
          (.request 0 TSTAT 0 (encodeStatBody 0)
            (fun _ => 0)) = some RSTAT := by
    decide +kernel
  rw [hType] at hStat
  cases reply with
  | none =>
      cases hStat
  | some reply =>
      exact ⟨reply, Option.some.inj hStat,
        readBack_iff_not_cuts hStep⟩

end Server

/- A name of one letter, repeated. -/
def longName (n : Nat) : String :=
  String.ofList (List.replicate n 'a')

theorem utf8ByteSize_longName (n : Nat) :
    (longName n).utf8ByteSize = n := by
  unfold longName
  induction n with
  | zero =>
      rfl
  | succ n ih =>
      have hOne :
          (String.ofList ['a']).utf8ByteSize = 1 := by
        decide
      rw [List.replicate_succ, utf8ByteSize_ofList_cons, ih,
        hOne]
      omega

theorem plainName_longName
    {n : Nat}
    (hLong : 2 < n) :
    PlainName (longName n) := by
  have hSize := utf8ByteSize_longName n
  have hNe {s : String} (hShort : s.utf8ByteSize ≤ 2) :
      longName n ≠ s := by
    intro hEq
    rw [hEq] at hSize
    omega
  refine ⟨hNe (by decide), ?_, hNe (by decide),
    hNe (by decide)⟩
  intro hMem
  rw [longName, String.toList_ofList] at hMem
  exact absurd (List.eq_of_mem_replicate hMem) (by decide)

/- A walk to a plain name that is missing stops there. -/
theorem walkNames_of_missing
    (hasher : Hasher)
    {fs : RamFs}
    {base name : String}
    (hPlain : PlainName name)
    (hFits : name.utf8ByteSize ≤ 65535)
    (hMissing : fs.view (components base ++ [name]) = none)
    (qids : List Qid) :
    walkNames hasher fs 1 (encodeString name) base qids =
      .ok (.error ("walk failed: component '" ++ name ++
        "' not found")) := by
  have hRead := (decodes_text "invalid string" hFits).run_nil
  rcases resolveStep_of_plainName base hPlain with
    ⟨next, hStep, hNext⟩
  rw [← hNext, ← RamFs.stat_eq_none_iff] at hMissing
  rw [walkNames, readString, hRead]
  simp only [bind, Except.bind, hStep, hMissing]

/-
  A walk from the root to a name of 65535 bytes is answered
  with a text that does not fit.
-/
theorem not_readBack_of_longName :
    ¬ ∀ (hasher : Hasher) (now : SystemTime) (fs : RamFs)
        (events : List Event) (conn : Nat)
        (msgType : UInt8) (tag : UInt16) (body : Bytes)
        (clock : Clock) (reply : Reply) (srv' : Server),
      RamFs.new now = .ok fs →
        Server.Step hasher
            (Run.final (Server.step hasher)
              (Server.start fs) events)
            (.request conn msgType tag body clock)
            (some reply) srv' →
          reply.ReadBack tag
            ((Run.final (Server.step hasher)
              (Server.start fs) events).sent hasher
                (.request conn msgType tag body clock)) := by
  intro hAlways
  generalize hLong : longName 65535 = name
  have hSize := utf8ByteSize_longName 65535
  have hPlain := plainName_longName (by decide : 2 < 65535)
  rw [hLong] at hSize hPlain
  have hNew := RamFs.new_eq_fresh (le_refl 0)
  have hMissing :
      (RamFs.fresh 0).view (components "/" ++ [name]) =
        none := by
    rw [RamFs.view_of_new hNew]
    rfl
  have hNames :=
    walkNames_of_missing (fun _ _ => 0) hPlain
      (le_of_eq hSize) hMissing []
  have hDecode := Request.decode_walk 0 1 [name]
  rw [List.flatMap_cons, List.flatMap_nil,
    List.append_nil] at hDecode
  have hStep :=
    @Server.step_of_stopped (fun _ _ => 0)
      (Run.final (Server.step (fun _ _ => 0))
        (Server.start (RamFs.fresh 0)) [.accept 0])
      rfl 0 [] 0 1 _ _ _ TWALK _ rfl hDecode hNames 0
      (fun _ => 0)
  have hReadBack :=
    hAlways _ 0 _ [.accept 0] 0 TWALK 0 _ _ _ _ hNew hStep
  rcases Server.sent_of_step hStep with
    ⟨frame, hFrame, hSent⟩
  rw [hSent, Reply.readBack_iff hFrame] at hReadBack
  have hFits := hReadBack.2
  have hBefore :
      "walk failed: component '".utf8ByteSize = 24 := rfl
  simp only [Reply.Fits, String.utf8ByteSize_append,
    hSize] at hFits
  omega

end Planten
