import Planten.RamFs.Server

/-
  What one request does to a session.

  A request body is decoded into its fields.  A decoded
  request has one of a fixed list of effects on the file
  system and the fid table, each with its reply, or it runs
  into one of a fixed list of hazards and panics.

  Key definitions include:
    * `Request`
    * `Reply`
    * `Refusal`
    * `Effect`
    * `Hazard`
    * `Outcome`

  Key theorems include:
    * `Request.decode_msgType`
-/

------------------------------------------------------------
-- Requests
------------------------------------------------------------

namespace Planten

/-
  The fields a handler reads off a request.  The names of a
  walk and the record of a wstat are kept as they stand,
  since they are read later than the rest.
-/
inductive Request where
| tversion (msize : UInt32) (version : String)
| tauth
| tattach (fid afid : UInt32) (uname aname : String)
| tflush
| twalk (fid newfid : UInt32) (nwname : UInt16)
    (names : Bytes)
| topen (fid : UInt32) (mode : UInt8)
| tcreate (fid : UInt32) (name : String) (perm : UInt32)
    (mode : UInt8)
| tread (fid : UInt32) (offset : UInt64) (count : UInt32)
| twrite (fid : UInt32) (offset : UInt64) (buffer : Bytes)
| tclunk (fid : UInt32)
| tremove (fid : UInt32)
| tstat (fid : UInt32)
| twstat (fid : UInt32) (record : Bytes)
| tclone (fid newfid : UInt32)
| unsupported
deriving DecidableEq, Repr

namespace Request

/- The fields of a frame, by its type. -/
def decode
    (msgType : UInt8)
    (body : Bytes) : Except IoError Request :=
  if msgType = TVERSION then
    (versionFields.run body).map
      (fun r => .tversion r.1.1 r.1.2)
  else if msgType = TATTACH then
    (attachFields.run body).map
      (fun r => .tattach r.1.1 r.1.2.1 r.1.2.2.1 r.1.2.2.2)
  else if msgType = TWALK then
    (walkFields.run body).map
      (fun r => .twalk r.1.1 r.1.2.1 r.1.2.2 r.2)
  else if msgType = TOPEN then
    (openFields.run body).map
      (fun r => .topen r.1.1 r.1.2)
  else if msgType = TREAD then
    (readFields.run body).map
      (fun r => .tread r.1.1 r.1.2.1 r.1.2.2)
  else if msgType = TWRITE then
    (writeFields.run body).map
      (fun r => .twrite r.1.1 r.1.2.1 r.1.2.2)
  else if msgType = TWSTAT then
    (readU32.run body).map (fun r => .twstat r.1 r.2)
  else if msgType = TFLUSH then
    .ok .tflush
  else if msgType = TREMOVE then
    (readU32.run body).map (fun r => .tremove r.1)
  else if msgType = TCLUNK then
    (readU32.run body).map (fun r => .tclunk r.1)
  else if msgType = TSTAT then
    (readU32.run body).map (fun r => .tstat r.1)
  else if msgType = TCLONE then
    (cloneFields.run body).map
      (fun r => .tclone r.1.1 r.1.2)
  else if msgType = TCREATE then
    (createFields.run body).map
      (fun r => .tcreate r.1.1 r.1.2.1 r.1.2.2.1 r.1.2.2.2)
  else if msgType = TAUTH then
    .ok .tauth
  else
    .ok .unsupported

/- The type byte of a request the server knows. -/
def msgType? : Request → Option UInt8
| tversion _ _ => some TVERSION
| tauth => some TAUTH
| tattach _ _ _ _ => some TATTACH
| tflush => some TFLUSH
| twalk _ _ _ _ => some TWALK
| topen _ _ => some TOPEN
| tcreate _ _ _ _ => some TCREATE
| tread _ _ _ => some TREAD
| twrite _ _ _ => some TWRITE
| tclunk _ => some TCLUNK
| tremove _ => some TREMOVE
| tstat _ => some TSTAT
| twstat _ _ => some TWSTAT
| tclone _ _ => some TCLONE
| unsupported => none

/- The fid that a request must find in the table. -/
def sourceFid? : Request → Option UInt32
| topen fid _ => some fid
| tcreate fid _ _ _ => some fid
| tread fid _ _ => some fid
| twrite fid _ _ => some fid
| tremove fid => some fid
| tstat fid => some fid
| twstat fid _ => some fid
| tclone fid _ => some fid
| _ => none

/- A choice that gives a value gives it on the side taken. -/
theorem of_ite_eq
    {α : Type}
    {p P : Prop}
    [Decidable p]
    {a b c : α}
    (hThen : p → a = c → P)
    (hElse : b = c → P)
    (hEq : (if p then a else b) = c) : P := by
  split at hEq
  · exact hThen ‹p› hEq
  · exact hElse hEq

theorem msgType_of_map
    {ε α : Type}
    {x : Except ε α}
    {f : α → Request}
    {req : Request}
    {msgType t : UInt8}
    (hFields : ∀ r, (f r).msgType? = some t)
    (hType : msgType = t)
    (hMap : x.map f = .ok req) :
    req = .unsupported ∨ req.msgType? = some msgType := by
  cases x with
  | error e =>
      cases hMap
  | ok r =>
      cases hMap
      rw [hType]
      exact Or.inr (hFields r)

/- A decoded request is of the type of its frame. -/
theorem decode_msgType
    {msgType : UInt8}
    {body : Bytes}
    {req : Request}
    (hDecode : decode msgType body = .ok req) :
    req = .unsupported ∨ req.msgType? = some msgType := by
  revert hDecode
  unfold decode
  refine of_ite_eq (msgType_of_map (fun _ => rfl)) ?_
  refine of_ite_eq (msgType_of_map (fun _ => rfl)) ?_
  refine of_ite_eq (msgType_of_map (fun _ => rfl)) ?_
  refine of_ite_eq (msgType_of_map (fun _ => rfl)) ?_
  refine of_ite_eq (msgType_of_map (fun _ => rfl)) ?_
  refine of_ite_eq (msgType_of_map (fun _ => rfl)) ?_
  refine of_ite_eq (msgType_of_map (fun _ => rfl)) ?_
  refine of_ite_eq (fun hType hEq => ?_) ?_
  · cases hEq
    exact Or.inr (congrArg some hType.symm)
  refine of_ite_eq (msgType_of_map (fun _ => rfl)) ?_
  refine of_ite_eq (msgType_of_map (fun _ => rfl)) ?_
  refine of_ite_eq (msgType_of_map (fun _ => rfl)) ?_
  refine of_ite_eq (msgType_of_map (fun _ => rfl)) ?_
  refine of_ite_eq (msgType_of_map (fun _ => rfl)) ?_
  refine of_ite_eq (fun hType hEq => ?_) ?_
  · cases hEq
    exact Or.inr (congrArg some hType.symm)
  intro hEq
  cases hEq
  exact Or.inl rfl

end Request

/- The type of the frame of a decoded request. -/
theorem msgType_of_decode
    {msgType t : UInt8}
    {body : Bytes}
    {req : Request}
    (hDecode : Request.decode msgType body = .ok req)
    (hType : req.msgType? = some t) :
    msgType = t := by
  rcases Request.decode_msgType hDecode with hEq | hEq
  · rw [hEq] at hType
    cases hType
  · exact Option.some.inj (hEq.symm.trans hType)

theorem ok_of_map_ok
    {α : Type}
    {x : Except IoError α}
    {f : α → Request}
    {req : Request}
    (hMap : x.map f = .ok req) :
    ∃ r, x = .ok r ∧ f r = req := by
  cases x with
  | error err =>
      cases hMap
  | ok r =>
      exact ⟨r, rfl, Except.ok.inj hMap⟩

/- A slice up to an end cut to the data is a window. -/
theorem slice_window
    {data : Bytes}
    {start : Nat}
    (hInside : start ≤ data.length)
    (count : Nat) :
    slice data start (min (start + count) data.length) =
      .ok ((data.drop start).take count) := by
  rw [slice, if_pos (by omega)]
  congr 1
  by_cases hShort : start + count ≤ data.length
  · rw [min_eq_left hShort, Nat.add_sub_cancel_left]
  · rw [min_eq_right (by omega)]
    rw [List.take_of_length_le (by simp),
      List.take_of_length_le (by
        rw [List.length_drop]
        omega)]

/- A read takes its chunk when its end does not overflow. -/
theorem readWindow_of_fits
    {offset : UInt64}
    {count : UInt32}
    (hFits : offset.toNat + count.toNat < 2 ^ 64)
    (profile : Profile)
    (data : Bytes) :
    readWindow profile data offset count =
      .ok ((data.drop offset.toNat).take count.toNat) := by
  simp only [readWindow]
  rw [usizeAdd_of_lt hFits]
  change (if data.length ≤ offset.toNat then _ else _) = _
  split
  · rename_i hPast
    rw [List.drop_of_length_le hPast, List.take_nil]
  · rename_i hInside
    exact slice_window (by omega) count.toNat

end Planten

------------------------------------------------------------
-- Replies
------------------------------------------------------------

namespace Planten

/- The replies of the server, with their fields. -/
inductive Reply where
| rversion (msize : UInt32) (version : String)
| rauth (aqid : Qid)
| rattach (qid : Qid)
| rerror (message : String)
| rflush
| rwalk (qids : List Qid)
| ropen (qid : Qid) (iounit : UInt32)
| rcreate (qid : Qid) (iounit : UInt32)
| rread (data : Bytes)
| rwrite (count : UInt32)
| rclunk
| rremove
| rstat (stat : Stat)
| rwstat
| rclone
deriving DecidableEq, Repr

namespace Reply

def msgType : Reply → UInt8
| rversion _ _ => RVERSION
| rauth _ => RAUTH
| rattach _ => RATTACH
| rerror _ => RERROR
| rflush => RFLUSH
| rwalk _ => RWALK
| ropen _ _ => ROPEN
| rcreate _ _ => RCREATE
| rread _ => RREAD
| rwrite _ => RWRITE
| rclunk => RCLUNK
| rremove => RREMOVE
| rstat _ => RSTAT
| rwstat => RWSTAT
| rclone => RCLONE

/- The encoding of the fields of a reply. -/
def body : Reply → Bytes
| rversion msize version => u32le msize ++ encodeString version
| rauth aqid => encodeQidBytes aqid
| rattach qid => encodeQidBytes qid
| rerror message => encodeString message
| rflush => []
| rwalk qids =>
    u16le (UInt16.ofNat qids.length) ++
      qids.flatMap encodeQidBytes
| ropen qid iounit => encodeQidBytes qid ++ u32le iounit
| rcreate qid iounit => encodeQidBytes qid ++ u32le iounit
| rread data => u32le (UInt32.ofNat data.length) ++ data
| rwrite count => u32le count
| rclunk => []
| rremove => []
| rstat stat => encodeStatPayload stat
| rwstat => []
| rclone => []

/- The frame of a reply. -/
def frame
    (reply : Reply)
    (tag : UInt16) : Except Panic Bytes :=
  buildFrame reply.msgType tag reply.body

/- A reply whose body fits the size field has a frame. -/
theorem frame_of_fits
    {reply : Reply}
    {tag : UInt16}
    (hFits : 7 + reply.body.length < 2 ^ 32) :
    reply.frame tag =
      .ok (frameBytes reply.msgType tag reply.body) :=
  buildFrame_of_fits _ _ hFits

end Reply

/-
  The frame around the chunk of a read fails when the chunk
  is just below four gigabytes.
-/
theorem frame_rread_eq_error_iff
    (data : Bytes)
    (offset : UInt64)
    (count : UInt32)
    {tag : UInt16}
    {cause : Panic} :
    (Reply.rread
      ((data.drop offset.toNat).take count.toNat)).frame
        tag = .error cause ↔
      (2 ^ 32 - 11 ≤
          min count.toNat (data.length - offset.toNat) ∧
        min count.toNat (data.length - offset.toNat) ≤
          2 ^ 32 - 5) ∧
        cause = .addOverflow := by
  have hCount := count.toNat_lt
  have hLength :
      (Reply.rread ((data.drop offset.toNat).take
        count.toNat)).body.length =
          4 + min count.toNat
            (data.length - offset.toNat) := by
    simp [Reply.body]
  rw [Reply.frame, buildFrame_eq_error_iff, hLength]
  constructor
  · rintro ⟨hWraps, hCause⟩
    exact ⟨by omega, hCause⟩
  · rintro ⟨hRange, hCause⟩
    exact ⟨by omega, hCause⟩

end Planten

------------------------------------------------------------
-- Small Replies
------------------------------------------------------------

namespace Planten

/- A reply with a body below a megabyte. -/
def Reply.Small (reply : Reply) : Prop :=
  reply.body.length < 2 ^ 20

theorem Reply.Small.frame
    {reply : Reply}
    (hSmall : reply.Small)
    (tag : UInt16) :
    reply.frame tag =
      .ok (frameBytes reply.msgType tag reply.body) := by
  unfold Reply.Small at hSmall
  exact Reply.frame_of_fits (by omega)

theorem small_rerror
    {message : String}
    (hShort : message.utf8ByteSize < 2 ^ 19) :
    (Reply.rerror message).Small := by
  simp only [Reply.Small, Reply.body, length_encodeString]
  omega

theorem length_flatMap_encodeQidBytes (qids : List Qid) :
    (qids.flatMap encodeQidBytes).length =
      13 * qids.length := by
  induction qids with
  | nil =>
      rfl
  | cons qid qids ih =>
      rw [List.flatMap_cons, List.length_append, ih,
        length_encodeQidBytes, List.length_cons]
      omega

theorem small_rwalk
    {qids : List Qid}
    (hCount : qids.length ≤ 65535) :
    (Reply.rwalk qids).Small := by
  simp only [Reply.Small, Reply.body, List.length_append,
    length_u16le, length_flatMap_encodeQidBytes]
  omega

/- The replies without variable parts are small. -/
theorem small_of_fixed
    {reply : Reply}
    (hFixed : reply.body.length ≤ 17) :
    reply.Small := by
  unfold Reply.Small
  omega

end Planten

------------------------------------------------------------
-- Effects
------------------------------------------------------------

namespace Planten

variable (hasher : Hasher) (clock : Clock)

/- The state a walk through a fid starts from. -/
def walkBaseState
    (fs : RamFs)
    (fids : FidTable)
    (fid : UInt32) : FidState :=
  match fids.lookup fid with
  | some state => state
  | none =>
      FidState.new "/" (qidFromInode hasher "/" fs.root)

/- Why a request is refused, and the text that says so. -/
inductive Refusal
    (fs : RamFs)
    (fids : FidTable) : Request → String → Prop where
| unsupported :
    Refusal fs fids .unsupported "unsupported message"
| unknownFid
    {req : Request}
    {fid : UInt32}
    (hSource : req.sourceFid? = some fid)
    (hNone : fids.lookup fid = none) :
    Refusal fs fids req "unknown fid"
| createPath
    {fid : UInt32} {name : String} {perm : UInt32}
    {mode : UInt8} {state : FidState}
    (hFid : fids.lookup fid = some state)
    (hStep : resolveStep state.path name = none) :
    Refusal fs fids (.tcreate fid name perm mode)
      "invalid target path"
| createExists
    {fid : UInt32} {name : String} {perm : UInt32}
    {mode : UInt8} {state : FidState} {newPath : String}
    (hFid : fids.lookup fid = some state)
    (hStep : resolveStep state.path name = some newPath)
    (hExists : (fs.stat newPath).isSome) :
    Refusal fs fids (.tcreate fid name perm mode)
      "file exists"
| walkName
    {fid newfid : UInt32} {nwname : UInt16}
    {names : Bytes} {message : String}
    (hNames :
      walkNames hasher fs nwname.toNat names
        (walkBaseState hasher fs fids fid).path [] =
          .ok (.error message)) :
    Refusal fs fids (.twalk fid newfid nwname names) message
| walkTarget
    {fid newfid : UInt32} {nwname : UInt16}
    {names : Bytes} {path : String} {qids : List Qid}
    {message : String}
    (hNames :
      walkNames hasher fs nwname.toNat names
        (walkBaseState hasher fs fids fid).path [] =
          .ok (.ok (path, qids)))
    (hTarget :
      walkTarget hasher fs path qids = .error message) :
    Refusal fs fids (.twalk fid newfid nwname names) message
| statMissing
    {fid : UInt32} {state : FidState}
    (hFid : fids.lookup fid = some state)
    (hNone : fs.stat state.path = none) :
    Refusal fs fids (.tstat fid) "file not found"
| openMissing
    {fid : UInt32} {mode : UInt8} {state : FidState}
    (hFid : fids.lookup fid = some state)
    (hNone : fs.stat state.path = none) :
    Refusal fs fids (.topen fid mode) "file not found"
| readNotOpen
    {fid : UInt32} {offset : UInt64} {count : UInt32}
    {state : FidState}
    (hFid : fids.lookup fid = some state)
    (hMode : state.openMode = none) :
    Refusal fs fids (.tread fid offset count) "fid not open"
| readMode
    {fid : UInt32} {offset : UInt64} {count : UInt32}
    {state : FidState} {mode : UInt8}
    (hFid : fids.lookup fid = some state)
    (hMode : state.openMode = some mode)
    (hDenied : modeAllowsRead mode = false) :
    Refusal fs fids (.tread fid offset count)
      "fid not open for read"
| readData
    {fid : UInt32} {offset : UInt64} {count : UInt32}
    {state : FidState} {mode : UInt8} {message : String}
    (hFid : fids.lookup fid = some state)
    (hMode : state.openMode = some mode)
    (hAllowed : modeAllowsRead mode = true)
    (hData :
      readData hasher fs state.path = .error message) :
    Refusal fs fids (.tread fid offset count) message
| writeNotOpen
    {fid : UInt32} {offset : UInt64} {buffer : Bytes}
    {state : FidState}
    (hFid : fids.lookup fid = some state)
    (hMode : state.openMode = none) :
    Refusal fs fids (.twrite fid offset buffer)
      "fid not open"
| writeMode
    {fid : UInt32} {offset : UInt64} {buffer : Bytes}
    {state : FidState} {mode : UInt8}
    (hFid : fids.lookup fid = some state)
    (hMode : state.openMode = some mode)
    (hDenied : modeAllowsWrite mode = false) :
    Refusal fs fids (.twrite fid offset buffer)
      "fid not open for write"
| wstatFormat
    {fid : UInt32} {record : Bytes} {state : FidState}
    {err : IoError}
    (hFid : fids.lookup fid = some state)
    (hRecord : decodeStat.run record = .error err) :
    Refusal fs fids (.twstat fid record)
      ("invalid stat format: " ++ err.message)
| wstatFailed
    {fid : UInt32} {record rest : Bytes}
    {state : FidState} {stat : Stat} {fs' : RamFs}
    (hFid : fids.lookup fid = some state)
    (hRecord : decodeStat.run record = .ok (stat, rest))
    (hOp :
      fs.wstatFromStat state.path stat = .ok (fs', none)) :
    Refusal fs fids (.twstat fid record) "wstat failed"

variable {hasher}

/- A read of an open fid with data is not refused. -/
theorem not_refused_read
    {fs : RamFs}
    {fids : FidTable}
    {fid : UInt32}
    {state : FidState}
    {mode : UInt8}
    (hFid : fids.lookup fid = some state)
    (hMode : state.openMode = some mode)
    (hAllowed : modeAllowsRead mode = true)
    {data : Bytes}
    (hData : readData hasher fs state.path = .ok data)
    (offset : UInt64)
    (count : UInt32)
    (message : String) :
    ¬ Refusal hasher fs fids (.tread fid offset count)
      message := by
  intro hRefusal
  cases hRefusal with
  | unknownFid hSource hNone =>
      cases hSource
      cases hNone.symm.trans hFid
  | readNotOpen hFid' hMode' =>
      cases hFid.symm.trans hFid'
      cases hMode.symm.trans hMode'
  | readMode hFid' hMode' hDenied =>
      cases hFid.symm.trans hFid'
      cases hMode.symm.trans hMode'
      cases hAllowed.symm.trans hDenied
  | readData hFid' hMode' hAllowed' hData' =>
      cases hFid.symm.trans hFid'
      cases hData.symm.trans hData'

/- Nor is a write of an open fid. -/
theorem not_refused_write
    {fs : RamFs}
    {fids : FidTable}
    {fid : UInt32}
    {state : FidState}
    {mode : UInt8}
    (hFid : fids.lookup fid = some state)
    (hMode : state.openMode = some mode)
    (hAllowed : modeAllowsWrite mode = true)
    (offset : UInt64)
    (buffer : Bytes)
    (message : String) :
    ¬ Refusal hasher fs fids (.twrite fid offset buffer)
      message := by
  intro hRefusal
  cases hRefusal with
  | unknownFid hSource hNone =>
      cases hSource
      cases hNone.symm.trans hFid
  | writeNotOpen hFid' hMode' =>
      cases hFid.symm.trans hFid'
      cases hMode.symm.trans hMode'
  | writeMode hFid' hMode' hDenied =>
      cases hFid.symm.trans hFid'
      cases hMode.symm.trans hMode'
      cases hAllowed.symm.trans hDenied

variable (hasher)

/-
  Everything an answered request can do: the file system and
  the fid table after it, and the reply.
-/
inductive Effect
    (fs : RamFs)
    (fids : FidTable) :
    Request → RamFs → FidTable → Reply → Prop where
| version
    {msize : UInt32} {version : String} :
    Effect fs fids (.tversion msize version) fs fids
      (.rversion 131072 "9P2000")
| auth :
    Effect fs fids .tauth fs fids (.rauth ⟨0, 0, 0⟩)
| flush :
    Effect fs fids .tflush fs fids .rflush
| attach
    {fid afid : UInt32} {uname aname : String} :
    Effect fs fids (.tattach fid afid uname aname) fs
      (KeyMap.insert fid
        (FidState.new "/" (qidFromInode hasher "/" fs.root))
        fids)
      (.rattach (qidFromInode hasher "/" fs.root))
| walk
    {fid newfid : UInt32} {nwname : UInt16}
    {names : Bytes} {path : String} {qids : List Qid}
    {newQid : Qid}
    (hNames :
      walkNames hasher fs nwname.toNat names
        (walkBaseState hasher fs fids fid).path [] =
          .ok (.ok (path, qids)))
    (hTarget :
      walkTarget hasher fs path qids = .ok newQid) :
    Effect fs fids (.twalk fid newfid nwname names) fs
      (KeyMap.insert newfid (FidState.new path newQid) fids)
      (.rwalk qids)
| opened
    {fid : UInt32} {mode : UInt8} {state : FidState}
    {inode : Inode}
    (hFid : fids.lookup fid = some state)
    (hStat : fs.stat state.path = some inode) :
    Effect fs fids (.topen fid mode) fs
      (KeyMap.insert fid
        { state with
          qid := qidFromInode hasher state.path inode
          openMode := some mode } fids)
      (.ropen (qidFromInode hasher state.path inode) 0)
| create
    {fid : UInt32} {name : String} {perm : UInt32}
    {mode : UInt8} {state : FidState} {newPath : String}
    {fs' : RamFs} {inode : Inode}
    (hFid : fids.lookup fid = some state)
    (hStep : resolveStep state.path name = some newPath)
    (hFresh : fs.stat newPath = none)
    (hOp : createNode clock fs newPath perm = .ok (fs', ()))
    (hStat : fs'.stat newPath = some inode) :
    Effect fs fids (.tcreate fid name perm mode) fs' fids
      (.rcreate (qidFromInode hasher newPath inode) 0)
| read
    {fid : UInt32} {offset : UInt64} {count : UInt32}
    {state : FidState} {mode : UInt8} {data chunk : Bytes}
    (hFid : fids.lookup fid = some state)
    (hMode : state.openMode = some mode)
    (hAllowed : modeAllowsRead mode = true)
    (hData : readData hasher fs state.path = .ok data)
    (hWindow :
      readWindow .dev data offset count = .ok chunk) :
    Effect fs fids (.tread fid offset count) fs fids
      (.rread chunk)
| write
    {fid : UInt32} {offset : UInt64} {buffer : Bytes}
    {state : FidState} {mode : UInt8} {fs' : RamFs}
    {written : Option UInt32}
    (hFid : fids.lookup fid = some state)
    (hMode : state.openMode = some mode)
    (hAllowed : modeAllowsWrite mode = true)
    (hOp :
      fs.write state.path offset buffer clock =
        .ok (fs', written)) :
    Effect fs fids (.twrite fid offset buffer) fs' fids
      (.rwrite (written.getD 0))
| clunk {fid : UInt32} :
    Effect fs fids (.tclunk fid) fs (KeyMap.erase fid fids)
      .rclunk
| remove
    {fid : UInt32} {state : FidState} {fs' : RamFs}
    (hFid : fids.lookup fid = some state)
    (hOp : fs.remove state.path = .ok (fs', some ())) :
    Effect fs fids (.tremove fid) fs'
      (KeyMap.erase fid fids) .rremove
| removeFailed
    {fid : UInt32} {state : FidState} {fs' : RamFs}
    (hFid : fids.lookup fid = some state)
    (hOp : fs.remove state.path = .ok (fs', none)) :
    Effect fs fids (.tremove fid) fs'
      (KeyMap.erase fid fids) (.rerror "remove failed")
| stat
    {fid : UInt32} {state : FidState} {inode : Inode}
    (hFid : fids.lookup fid = some state)
    (hStat : fs.stat state.path = some inode) :
    Effect fs fids (.tstat fid) fs fids
      (.rstat (inodeToStat hasher state.path inode))
| wstat
    {fid : UInt32} {record rest : Bytes}
    {state : FidState} {stat : Stat} {fs' : RamFs}
    (hFid : fids.lookup fid = some state)
    (hRecord : decodeStat.run record = .ok (stat, rest))
    (hOp :
      fs.wstatFromStat state.path stat =
        .ok (fs', some ())) :
    Effect fs fids (.twstat fid record) fs' fids .rwstat
| clone
    {fid newfid : UInt32} {state : FidState}
    (hFid : fids.lookup fid = some state) :
    Effect fs fids (.tclone fid newfid) fs
      (KeyMap.insert newfid state fids) .rclone
| refused
    {req : Request} {message : String}
    (hRefusal : Refusal hasher fs fids req message) :
    Effect fs fids req fs fids (.rerror message)

/-
  Everything that makes a request panic, with the cause and
  whether the panic poisons the lock.
-/
inductive Hazard
    (tag : UInt16)
    (s : Session) :
    Request → Panic → Bool → Prop where
| poisonedLock
    {req : Request}
    (hPoisoned : s.poisoned = true) :
    Hazard tag s req .poisonedLock false
| create
    {fid : UInt32} {name : String} {perm : UInt32}
    {mode : UInt8} {state : FidState} {newPath : String}
    {cause : Panic}
    (hFid : s.fids.lookup fid = some state)
    (hStep : resolveStep state.path name = some newPath)
    (hFresh : s.ramfs.stat newPath = none)
    (hOp :
      createNode clock s.ramfs newPath perm =
        .error cause) :
    Hazard tag s (.tcreate fid name perm mode) cause true
| readWindow
    {fid : UInt32} {offset : UInt64} {count : UInt32}
    {state : FidState} {mode : UInt8} {data : Bytes}
    {cause : Panic}
    (hFid : s.fids.lookup fid = some state)
    (hMode : state.openMode = some mode)
    (hAllowed : modeAllowsRead mode = true)
    (hData : readData hasher s.ramfs state.path = .ok data)
    (hWindow :
      readWindow .dev data offset count = .error cause) :
    Hazard tag s (.tread fid offset count) cause false
| readFrame
    {fid : UInt32} {offset : UInt64} {count : UInt32}
    {state : FidState} {mode : UInt8} {data chunk : Bytes}
    {cause : Panic}
    (hFid : s.fids.lookup fid = some state)
    (hMode : state.openMode = some mode)
    (hAllowed : modeAllowsRead mode = true)
    (hData : readData hasher s.ramfs state.path = .ok data)
    (hWindow :
      readWindow .dev data offset count = .ok chunk)
    (hFrame : (Reply.rread chunk).frame tag = .error cause) :
    Hazard tag s (.tread fid offset count) cause false
| write
    {fid : UInt32} {offset : UInt64} {buffer : Bytes}
    {state : FidState} {mode : UInt8} {cause : Panic}
    (hFid : s.fids.lookup fid = some state)
    (hMode : state.openMode = some mode)
    (hAllowed : modeAllowsWrite mode = true)
    (hOp :
      s.ramfs.write state.path offset buffer clock =
        .error cause) :
    Hazard tag s (.twrite fid offset buffer) cause true
| wstat
    {fid : UInt32} {record rest : Bytes}
    {state : FidState} {stat : Stat} {cause : Panic}
    (hFid : s.fids.lookup fid = some state)
    (hRecord : decodeStat.run record = .ok (stat, rest))
    (hOp :
      s.ramfs.wstatFromStat state.path stat =
        .error cause) :
    Hazard tag s (.twstat fid record) cause true
| statFrame
    {fid : UInt32} {state : FidState} {inode : Inode}
    {cause : Panic}
    (hFid : s.fids.lookup fid = some state)
    (hStat : s.ramfs.stat state.path = some inode)
    (hFrame :
      (Reply.rstat
        (inodeToStat hasher state.path inode)).frame tag =
          .error cause) :
    Hazard tag s (.tstat fid) cause true

/-
  How a handler ends on a frame with given fields: with the
  connection ended by an unreadable body, with one reply, or
  with a panic.
-/
inductive Outcome
    (tag : UInt16)
    (s : Session) :
    Except IoError Request →
      EStateM.Result Fault Session Unit → Prop where
| malformed (err : IoError) :
    Outcome tag s (.error err) (.error (.io err) s)
| badName
    {fid newfid : UInt32} {nwname : UInt16}
    {names : Bytes} {err : IoError}
    (hNames :
      walkNames hasher s.ramfs nwname.toNat names
        (walkBaseState hasher s.ramfs s.fids fid).path [] =
          .error err) :
    Outcome tag s (.ok (.twalk fid newfid nwname names))
      (.error (.io err) s)
| served
    {req : Request} {fs : RamFs} {fids : FidTable}
    {reply : Reply} {frame : Bytes}
    (hEffect :
      Effect hasher clock s.ramfs s.fids req fs fids reply)
    (hFrame : reply.frame tag = .ok frame) :
    Outcome tag s (.ok req)
      (.ok () ⟨fs, s.poisoned, fids, s.sent ++ frame⟩)
| panicked
    {req : Request} {cause : Panic} {poisons : Bool}
    (hHazard :
      Hazard hasher clock tag s req cause poisons) :
    Outcome tag s (.ok req)
      (.error (.panic cause)
        { s with poisoned := s.poisoned || poisons })

end Planten
