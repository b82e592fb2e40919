import Planten.Library.Likeness
import Planten.RamFs.Decoding
import Planten.RamFs.FlatServer

/-
  Permission bits decide nothing.

  A mode has a directory bit and permission bits.  Take two
  runs that differ only in the names of the users who attach
  and in the permission bits that clients ask for.  The files
  and the fids are the same, but for these bits, and so are
  the replies, but for the records that stats and reads of
  directories show.  Nobody is refused anything for want of
  a permission.

  Key definitions include:
    * `Attrs.SameButMode`, `Stat.SameButMode`
    * `Request.SameButMode`, `Event.SameButMode`
    * `SameButModes`
    * `Server.SameButMode`

  Key theorems include:
    * `FlatFs.wstatFromStat_alike`
    * `FlatFs.answer_alike`
    * `FlatServer.coupling`
    * `Server.permissions_decide_nothing`
-/

------------------------------------------------------------
-- Modes
------------------------------------------------------------

namespace Planten

/- The same directory bit. -/
def SameKind (mode mode' : UInt32) : Prop :=
  mode' &&& DMDIR = mode &&& DMDIR

/- The same node, but for its permission bits. -/
def Attrs.SameButMode (attrs attrs' : Attrs) : Prop :=
  ∃ mode,
    SameKind attrs.mode mode ∧
      attrs' = { attrs with mode := mode }

/-
  The same record, but for the permission bits.  The mode
  that asks for no change is the same in both.
-/
def Stat.SameButMode (stat stat' : Stat) : Prop :=
  ∃ mode,
    SameKind stat.mode mode ∧
      (mode = 0xffffffff ↔ stat.mode = 0xffffffff) ∧
      stat' = { stat with mode := mode }

/-
  The same request, but for the users who attach and the
  permission bits that are asked for.
-/
inductive Request.SameButMode : Request → Request → Prop where
| same (req : Request) :
    SameButMode req req
| attach
    (fid afid afid' : UInt32)
    (uname uname' aname aname' : String) :
    SameButMode (.tattach fid afid uname aname)
      (.tattach fid afid' uname' aname')
| create
    {perm perm' : UInt32}
    (hKind : SameKind perm perm')
    (fid : UInt32) (name : String) (mode mode' : UInt8) :
    SameButMode (.tcreate fid name perm mode)
      (.tcreate fid name perm' mode')
| wstat
    {record record' rest rest' : Bytes} {stat stat' : Stat}
    (hRecord : decodeStat.run record = .ok (stat, rest))
    (hRecord' : decodeStat.run record' = .ok (stat', rest'))
    (hStat : stat.SameButMode stat')
    (fid : UInt32) :
    SameButMode (.twstat fid record) (.twstat fid record')

/- The same event, or requests that are the same so far. -/
inductive Event.SameButMode : Event → Event → Prop where
| same (event : Event) :
    SameButMode event event
| request
    {msgType : UInt8} {body body' : Bytes}
    {req req' : Request}
    (hDecode : Request.decode msgType body = .ok req)
    (hDecode' : Request.decode msgType body' = .ok req')
    (hReq : req.SameButMode req')
    (conn : Nat) (tag : UInt16) (clock : Clock) :
    SameButMode (.request conn msgType tag body clock)
      (.request conn msgType tag body' clock)

/-
  Two replies of one size, type and tag.  They are the same
  unless they are those to a stat or to a read.
-/
structure SameButModes (frame frame' : Bytes) : Prop where
  size : frame.length = frame'.length
  header : frame.take 7 = frame'.take 7
  body :
    frame = frame' ∨
      frame[4]? = some RSTAT ∨ frame[4]? = some RREAD

/-
  The same fids and lock, and the same files but for their
  permission bits.
-/
structure FlatServer.SameButMode
    (srv srv' : FlatServer) : Prop where
  files :
    PathMap.Alike Attrs.SameButMode srv.files srv'.files
  poisoned : srv.poisoned = srv'.poisoned
  conns : srv.conns = srv'.conns

def Server.SameButMode (srv srv' : Server) : Prop :=
  srv.flat.SameButMode srv'.flat

end Planten

------------------------------------------------------------
-- Nodes of Two Modes
------------------------------------------------------------

namespace Planten

namespace Attrs.SameButMode

variable {attrs attrs' : Attrs}

theorem refl (attrs : Attrs) : attrs.SameButMode attrs :=
  ⟨attrs.mode, rfl, rfl⟩

theorem isDir_iff
    (hSame : attrs.SameButMode attrs') :
    attrs'.IsDir ↔ attrs.IsDir := by
  rcases hSame with ⟨mode, hKind, rfl⟩
  unfold IsDir
  rw [hKind]

theorem data_eq
    (hSame : attrs.SameButMode attrs') :
    attrs'.data = attrs.data := by
  rcases hSame with ⟨mode, _, rfl⟩
  rfl

/- A qid has the directory bit only. -/
theorem qid_eq
    (hSame : attrs.SameButMode attrs')
    (hasher : Hasher)
    (path : String) :
    attrs'.qid hasher path = attrs.qid hasher path := by
  have hDir := hSame.isDir_iff
  rcases hSame with ⟨mode, _, rfl⟩
  simp only [Attrs.qid, hDir]

/- The permission bits take no room in a record. -/
theorem length_stat
    (hSame : attrs.SameButMode attrs')
    (hasher : Hasher)
    (path : String) :
    (encodeStatPayload (attrs'.stat hasher path)).length =
      (encodeStatPayload
        (attrs.stat hasher path)).length := by
  rcases hSame with ⟨mode, _, rfl⟩
  rw [length_encodeStatPayload, length_encodeStatPayload,
    length_statRecord, length_statRecord]
  rfl

/- New data and a new time leave the modes as they are. -/
theorem overwrite
    (hSame : attrs.SameButMode attrs')
    (data : Bytes)
    (mtime : UInt32) :
    SameButMode
      { attrs with data := data, mtime := mtime }
      { attrs' with data := data, mtime := mtime } := by
  rcases hSame with ⟨mode, hKind, rfl⟩
  exact ⟨mode, hKind, rfl⟩

theorem rename
    (hSame : attrs.SameButMode attrs')
    (name : String) :
    SameButMode { attrs with name := name }
      { attrs' with name := name } := by
  rcases hSame with ⟨mode, hKind, rfl⟩
  exact ⟨mode, hKind, rfl⟩

/- The mode after a stat is one of two, the same in kind. -/
theorem applyRootStat
    {stat stat' : Stat}
    (hSame : attrs.SameButMode attrs')
    (hStat : stat.SameButMode stat') :
    SameButMode (Inode.applyRootStat stat attrs)
      (Inode.applyRootStat stat' attrs') := by
  rcases hSame with ⟨mode, hKind, rfl⟩
  rcases hStat with ⟨asked, hAsked, hKeeps, rfl⟩
  refine ⟨if asked ≠ 0xffffffff then asked else mode, ?_,
    rfl⟩
  unfold Inode.applyRootStat
  by_cases hKeep : asked = 0xffffffff
  · simpa [hKeep, hKeeps.mp hKeep] using hKind
  · have hKeep' : stat.mode ≠ 0xffffffff :=
      fun hEq => hKeep (hKeeps.mpr hEq)
    simpa [hKeep, hKeep'] using hAsked

end Attrs.SameButMode

/- A stat applied to two such nodes. -/
theorem Inode.applyStat_alike
    {attrs attrs' : Attrs}
    {stat stat' : Stat}
    (hSame : attrs.SameButMode attrs')
    (hStat : stat.SameButMode stat') :
    (∃ cause,
      Inode.applyStat stat attrs = .error cause ∧
        Inode.applyStat stat' attrs' = .error cause) ∨
      ∃ after after',
        Inode.applyStat stat attrs = .ok after ∧
          Inode.applyStat stat' attrs' = .ok after' ∧
          after.SameButMode after' := by
  have hApplied := hSame.applyRootStat hStat
  have hData :
      Inode.statData stat' attrs'.data =
        Inode.statData stat attrs.data := by
    rcases hStat with ⟨mode, _, _, rfl⟩
    rw [hSame.data_eq]
    rfl
  unfold Inode.applyStat
  rw [hData]
  cases Inode.statData stat attrs.data with
  | error cause =>
      exact Or.inl ⟨cause, rfl, rfl⟩
  | ok data =>
      rcases hApplied with ⟨mode, hKind, hEq⟩
      refine Or.inr ⟨_, _, rfl, rfl, mode, hKind, ?_⟩
      rw [hEq]

end Planten

------------------------------------------------------------
-- Operations
------------------------------------------------------------

namespace Planten

/-
  The same result of an operation, with files that are the
  same but for permission bits.
-/
inductive FlatFs.AlikeResult {β : Type} :
    Except Panic (FlatFs × β) →
      Except Panic (FlatFs × β) → Prop where
| ok
    {m m' : FlatFs}
    (hAlike : PathMap.Alike Attrs.SameButMode m m') (b : β) :
    AlikeResult (.ok (m, b)) (.ok (m', b))
| error (cause : Panic) :
    AlikeResult (.error cause) (.error cause)

namespace FlatFs

open PathMap (Alike)

variable {m m' : FlatFs}

theorem createsBeforeEpoch_alike
    (hAlike : Alike Attrs.SameButMode m m')
    (clock : Clock)
    (p : List String) :
    m.CreatesBeforeEpoch clock p ↔
      m'.CreatesBeforeEpoch clock p := by
  unfold CreatesBeforeEpoch
  simp only [hAlike.eq_none_iff]

/- The mode of a new node is not the one asked for. -/
theorem create_alike
    (hAlike : Alike Attrs.SameButMode m m')
    {perm perm' : UInt32}
    (hKind : SameKind perm perm')
    (clock : Clock)
    (p : List String) :
    AlikeResult (m.create clock p perm)
      (m'.create clock p perm') := by
  unfold create createDir createFile
  rw [hKind]
  simp only [createsBeforeEpoch_alike hAlike]
  split_ifs
  · exact .error _
  · exact .ok
      (hAlike.fill (fun _ => Attrs.SameButMode.refl _) p) ()
  · exact .ok hAlike ()
  · exact .error _
  · refine .ok (PathMap.Alike.plant ?_ p ?_) ()
    · exact hAlike.fill (fun _ => Attrs.SameButMode.refl _)
        p.dropLast
    · exact .single (Attrs.SameButMode.refl _)

theorem write_alike
    (hAlike : Alike Attrs.SameButMode m m')
    (p : List String)
    (offset : UInt64)
    (buf : Bytes)
    (clock : Clock) :
    AlikeResult (m.write p offset buf clock)
      (m'.write p offset buf clock) := by
  unfold write
  split_ifs
  · exact .ok hAlike none
  · rcases hAlike.cases p with
      ⟨hNone, hNone'⟩ | ⟨attrs, attrs', hSome, hSome', hSame⟩
    · rw [hNone, hNone']
      exact .ok hAlike none
    · rw [hSome, hSome']
      simp only [hSame.data_eq]
      cases Inode.overlay attrs.data offset.toNat buf with
      | error cause =>
          exact .error cause
      | ok data =>
          exact .ok
            (hAlike.assign p (hSame.overwrite data _)) _

theorem remove_alike
    (hAlike : Alike Attrs.SameButMode m m')
    (p : List String) :
    (m.remove p).2 = (m'.remove p).2 ∧
      Alike Attrs.SameButMode (m.remove p).1
        (m'.remove p).1 := by
  unfold remove
  simp only [hAlike.eq_none_iff]
  split_ifs
  · exact ⟨rfl, hAlike⟩
  · exact ⟨rfl, hAlike.prune p⟩

theorem wstatFromStat_alike
    (hAlike : Alike Attrs.SameButMode m m')
    {stat stat' : Stat}
    (hStat : stat.SameButMode stat')
    (p : List String) :
    AlikeResult (m.wstatFromStat p stat)
      (m'.wstatFromStat p stat') := by
  have hName : stat'.name = stat.name := by
    rcases hStat with ⟨mode, _, _, rfl⟩
    rfl
  unfold wstatFromStat
  rw [hName]
  rcases hAlike.cases p with
    ⟨hNone, hNone'⟩ | ⟨attrs, attrs', hSome, hSome', hSame⟩
  · rw [hNone, hNone']
    exact .ok hAlike none
  · rw [hSome, hSome']
    simp only
    cases p.getLast? with
    | none =>
        exact .ok
          (hAlike.assign p (hSame.applyRootStat hStat)) _
    | some filename =>
        simp only
        rcases Inode.applyStat_alike hSame hStat with
          ⟨cause, hError, hError'⟩ |
            ⟨after, after', hAfter, hAfter', hSame'⟩
        · rw [hError, hError']
          exact .error cause
        · rw [hAfter, hAfter']
          simp only [bind, Except.bind]
          split_ifs
          · rcases hAlike.cases
                (p.dropLast ++ [stat.name]) with
              ⟨hFree, hFree'⟩ | ⟨_, _, hTaken, hTaken', _⟩
            · rw [hFree, hFree']
              exact .ok (hAlike.relabel _ _ _
                (hSame'.rename stat.name)) _
            · rw [hTaken, hTaken']
              exact .ok hAlike none
          · exact .ok (hAlike.assign p hSame') _

end FlatFs

end Planten

------------------------------------------------------------
-- Reports
------------------------------------------------------------

namespace Planten

namespace FlatFs

open PathMap (Alike)

variable {m m' : FlatFs} (hasher : Hasher)

theorem walkNames_alike
    (hAlike : Alike Attrs.SameButMode m m')
    (n : Nat)
    (cursor : Bytes)
    (path : String)
    (qids : List Qid) :
    m.walkNames hasher n cursor path qids =
      m'.walkNames hasher n cursor path qids := by
  induction n generalizing cursor path qids with
  | zero =>
      rfl
  | succ n ih =>
      unfold walkNames
      cases readString.run cursor with
      | error err =>
          rfl
      | ok named =>
          rcases named with ⟨name, cursor⟩
          simp only [bind, Except.bind]
          cases resolveStep path name with
          | none =>
              rfl
          | some nextPath =>
              rcases hAlike.cases (components nextPath) with
                ⟨hNone, hNone'⟩ |
                  ⟨attrs, attrs', hSome, hSome', hSame⟩
              · simp only [hNone, hNone']
              · simp only [hSome, hSome',
                  hSame.qid_eq hasher]
                exact ih _ _ _

theorem walkTarget_alike
    (hAlike : Alike Attrs.SameButMode m m')
    (path : String)
    (qids : List Qid) :
    m.walkTarget hasher path qids =
      m'.walkTarget hasher path qids := by
  unfold walkTarget
  cases qids.getLast? with
  | some last =>
      rfl
  | none =>
      rcases hAlike.cases (components path) with
        ⟨hNone, hNone'⟩ |
          ⟨attrs, attrs', hSome, hSome', hSame⟩
      · simp only [hNone, hNone']
      · simp only [hSome, hSome', hSame.qid_eq hasher]

/- The records of a directory take the same room. -/
theorem length_dirBytes_alike
    (hAlike : Alike Attrs.SameButMode m m')
    (path : String) :
    (m.dirBytes hasher path).length =
      (m'.dirBytes hasher path).length := by
  have hEntry (entry : String) :
      (m.entryBytes hasher path entry).length =
        (m'.entryBytes hasher path entry).length := by
    unfold entryBytes
    cases resolveStep path entry with
    | none =>
        rfl
    | some childPath =>
        rcases hAlike.cases (components childPath) with
          ⟨hNone, hNone'⟩ |
            ⟨attrs, attrs', hSome, hSome', hSame⟩
        · simp only [hNone, hNone']
        · simp only [hSome, hSome']
          exact (hSame.length_stat hasher childPath).symm
  unfold dirBytes
  rw [hAlike.childKeys, List.length_flatMap,
    List.length_flatMap]
  simp only [hEntry]

/- A read finds the same data, or records of the same size. -/
theorem readData_alike
    (hAlike : Alike Attrs.SameButMode m m')
    (path : String) :
    (∃ message,
      m.readData hasher path = .error message ∧
        m'.readData hasher path = .error message) ∨
      ∃ data data',
        m.readData hasher path = .ok data ∧
          m'.readData hasher path = .ok data' ∧
          data.length = data'.length := by
  unfold readData
  rcases hAlike.cases (components path) with
    ⟨hNone, hNone'⟩ | ⟨attrs, attrs', hSome, hSome', hSame⟩
  · rw [hNone, hNone']
    exact Or.inl ⟨_, rfl, rfl⟩
  · rw [hSome, hSome']
    simp only [hSame.isDir_iff, hSame.data_eq]
    split_ifs
    · exact Or.inr ⟨_, _, rfl, rfl,
        length_dirBytes_alike hasher hAlike path⟩
    · exact Or.inl ⟨_, rfl, rfl⟩
    · exact Or.inr ⟨_, _, rfl, rfl, rfl⟩

end FlatFs

/- Windows of data of one length have one length. -/
theorem readWindow_of_length
    {data data' : Bytes}
    (hLength : data.length = data'.length)
    (profile : Profile)
    (offset : UInt64)
    (count : UInt32) :
    (∃ cause,
      readWindow profile data offset count = .error cause ∧
        readWindow profile data' offset count =
          .error cause) ∨
      ∃ chunk chunk',
        readWindow profile data offset count = .ok chunk ∧
          readWindow profile data' offset count =
            .ok chunk' ∧
          chunk.length = chunk'.length := by
  simp only [readWindow, bind, Except.bind, slice, hLength]
  cases usizeAdd profile offset.toNat count.toNat with
  | error cause =>
      exact Or.inl ⟨cause, rfl, rfl⟩
  | ok sum =>
      simp only
      split_ifs
      · exact Or.inr ⟨_, _, rfl, rfl, rfl⟩
      · refine Or.inr ⟨_, _, rfl, rfl, ?_⟩
        simp only [List.length_take, List.length_drop,
          hLength]
      · exact Or.inl ⟨_, rfl, rfl⟩

/- Bodies of one length are framed alike. -/
theorem buildFrame_of_length
    {body body' : Bytes}
    (hLength : body.length = body'.length)
    (msgType : UInt8)
    (tag : UInt16) :
    (∃ cause,
      buildFrame msgType tag body = .error cause ∧
        buildFrame msgType tag body' = .error cause) ∨
      ∃ frame frame',
        buildFrame msgType tag body = .ok frame ∧
          buildFrame msgType tag body' = .ok frame' ∧
          frame.length = frame'.length ∧
          frame.take 7 = frame'.take 7 := by
  unfold buildFrame
  rw [hLength]
  cases u32Add 7 (UInt32.ofNat body'.length) with
  | error cause =>
      exact Or.inl ⟨cause, rfl, rfl⟩
  | ok size =>
      refine Or.inr ⟨_, _, rfl, rfl, ?_, ?_⟩
      · simp [hLength]
      · have hTake (body : Bytes) :
            (u32le size ++
              msgType :: (u16le tag ++ body)).take 7 =
              u32le size ++ msgType :: u16le tag := by
          have hHead :
              (u32le size ++
                msgType :: u16le tag).length = 7 := by
            simp
          rw [← List.cons_append, ← List.append_assoc,
            ← hHead, List.take_left]
        rw [hTake, hTake]

end Planten

------------------------------------------------------------
-- Answers
------------------------------------------------------------

namespace Planten

/- The same answer, but for permission bits. -/
inductive FlatAnswer.Alike :
    FlatAnswer → FlatAnswer → Prop where
| served
    {files files' : FlatFs} {frame frame' : Bytes}
    (hFiles :
      PathMap.Alike Attrs.SameButMode files files')
    (fids : FidTable)
    (hFrame : SameButModes frame frame') :
    Alike (.served files fids frame)
      (.served files' fids frame')
| ended : Alike .ended .ended
| panicked (poisons : Bool) :
    Alike (.panicked poisons) (.panicked poisons)

namespace FlatFs

open FlatAnswer (send)
open PathMap (Alike)

variable {m m' : FlatFs}

theorem send_same
    (hAlike : Alike Attrs.SameButMode m m')
    (tag : UInt16)
    (locked : Bool)
    (fids : FidTable)
    (reply : Reply) :
    FlatAnswer.Alike (send tag locked m fids reply)
      (send tag locked m' fids reply) := by
  unfold send
  cases reply.frame tag with
  | error cause =>
      exact .panicked locked
  | ok frame =>
      exact .served hAlike fids ⟨rfl, rfl, Or.inl rfl⟩

/- Replies that carry records of the same size. -/
theorem send_records
    (hAlike : Alike Attrs.SameButMode m m')
    (tag : UInt16)
    (locked : Bool)
    (fids : FidTable)
    {reply reply' : Reply}
    (hType : reply.msgType = reply'.msgType)
    (hRecords :
      reply.msgType = RSTAT ∨ reply.msgType = RREAD)
    (hLength : reply.body.length = reply'.body.length) :
    FlatAnswer.Alike (send tag locked m fids reply)
      (send tag locked m' fids reply') := by
  unfold send Reply.frame
  rw [← hType]
  rcases buildFrame_of_length hLength reply.msgType tag with
    ⟨cause, hError, hError'⟩ |
      ⟨frame, frame', hFrame, hFrame', hSize, hHeader⟩
  · rw [hError, hError']
    exact .panicked locked
  · rw [hFrame, hFrame']
    refine .served hAlike fids ⟨hSize, hHeader, Or.inr ?_⟩
    rw [Server.type_of_buildFrame hFrame, Option.some_inj,
      Option.some_inj]
    exact hRecords

/- A read of a fid that is open for reading. -/
theorem tread_alike
    (hasher : Hasher)
    (hAlike : Alike Attrs.SameButMode m m')
    (clock : Clock)
    (tag : UInt16)
    (fids : FidTable)
    (fid : UInt32)
    (offset : UInt64)
    (count : UInt32) :
    FlatAnswer.Alike
      (m.answer hasher clock tag fids
        (.tread fid offset count))
      (m'.answer hasher clock tag fids
        (.tread fid offset count)) := by
  have hSend
      (locked : Bool)
      (fids : FidTable)
      (reply : Reply) :=
    send_same hAlike tag locked fids reply
  simp only [answer]
  cases fids.lookup fid with
  | none =>
      exact hSend _ _ _
  | some state =>
      simp only
      cases state.openMode with
      | none =>
          exact hSend _ _ _
      | some mode =>
          simp only
          split_ifs
          · rcases readData_alike hasher hAlike state.path with
              ⟨message, hError, hError'⟩ |
                ⟨data, data', hData, hData', hLength⟩
            · simp only [hError, hError']
              exact hSend _ _ _
            · simp only [hData, hData']
              rcases readWindow_of_length hLength .dev offset
                  count with
                ⟨cause, hCut, hCut'⟩ |
                  ⟨chunk, chunk', hChunk, hChunk', hSize⟩
              · simp only [hCut, hCut']
                exact .panicked false
              · simp only [hChunk, hChunk']
                have hType :
                    (Reply.rread chunk).msgType =
                      (Reply.rread chunk').msgType := rfl
                apply send_records hAlike tag false fids hType
                · exact Or.inr rfl
                · simp [Reply.body, hSize]
          · exact hSend _ _ _

/- The users who attach make no difference. -/
theorem tattach_alike
    (hasher : Hasher)
    (hAlike : Alike Attrs.SameButMode m m')
    (clock : Clock)
    (tag : UInt16)
    (fids : FidTable)
    (fid afid afid' : UInt32)
    (uname uname' aname aname' : String) :
    FlatAnswer.Alike
      (m.answer hasher clock tag fids
        (.tattach fid afid uname aname))
      (m'.answer hasher clock tag fids
        (.tattach fid afid' uname' aname')) := by
  simp only [answer]
  rcases hAlike.cases [] with
    ⟨hNone, hNone'⟩ | ⟨attrs, attrs', hSome, hSome', hSame⟩
  · simp only [hNone, hNone']
    exact send_same hAlike _ _ _ _
  · simp only [hSome, hSome', hSame.qid_eq hasher]
    exact send_same hAlike _ _ _ _

theorem tcreate_alike
    (hasher : Hasher)
    (hAlike : Alike Attrs.SameButMode m m')
    {perm perm' : UInt32}
    (hKind : SameKind perm perm')
    (clock : Clock)
    (tag : UInt16)
    (fids : FidTable)
    (fid : UInt32)
    (name : String)
    (mode mode' : UInt8) :
    FlatAnswer.Alike
      (m.answer hasher clock tag fids
        (.tcreate fid name perm mode))
      (m'.answer hasher clock tag fids
        (.tcreate fid name perm' mode')) := by
  simp only [answer]
  cases fids.lookup fid with
  | none =>
      exact send_same hAlike _ _ _ _
  | some state =>
      simp only
      cases resolveStep state.path name with
      | none =>
          exact send_same hAlike _ _ _ _
      | some newPath =>
          simp only [hAlike.isSome_eq]
          split_ifs
          · exact send_same hAlike _ _ _ _
          · have hResult :=
              create_alike hAlike hKind clock
                (components newPath)
            generalize
              m.create clock _ perm = result,
              m'.create clock _ perm' = result'
              at hResult ⊢
            cases hResult with
            | error cause =>
                exact .panicked true
            | ok hAfter _ =>
                rcases hAfter.cases (components newPath) with
                  ⟨hNone, hNone'⟩ |
                    ⟨attrs, attrs', hSome, hSome', hSame⟩
                · simp only [hNone, hNone']
                  exact .panicked true
                · simp only [hSome, hSome',
                    hSame.qid_eq hasher]
                  exact send_same hAfter _ _ _ _

theorem twrite_alike
    (hasher : Hasher)
    (hAlike : Alike Attrs.SameButMode m m')
    (clock : Clock)
    (tag : UInt16)
    (fids : FidTable)
    (fid : UInt32)
    (offset : UInt64)
    (buffer : Bytes) :
    FlatAnswer.Alike
      (m.answer hasher clock tag fids
        (.twrite fid offset buffer))
      (m'.answer hasher clock tag fids
        (.twrite fid offset buffer)) := by
  simp only [answer]
  cases fids.lookup fid with
  | none =>
      exact send_same hAlike _ _ _ _
  | some state =>
      simp only
      cases state.openMode with
      | none =>
          exact send_same hAlike _ _ _ _
      | some mode =>
          simp only
          split_ifs
          · have hResult :=
              write_alike hAlike (components state.path)
                offset buffer clock
            generalize
              m.write _ offset buffer clock = result,
              m'.write _ offset buffer clock = result'
              at hResult ⊢
            cases hResult with
            | error cause =>
                exact .panicked true
            | ok hAfter written =>
                exact send_same hAfter _ _ _ _
          · exact send_same hAlike _ _ _ _

theorem tremove_alike
    (hasher : Hasher)
    (hAlike : Alike Attrs.SameButMode m m')
    (clock : Clock)
    (tag : UInt16)
    (fids : FidTable)
    (fid : UInt32) :
    FlatAnswer.Alike
      (m.answer hasher clock tag fids (.tremove fid))
      (m'.answer hasher clock tag fids (.tremove fid)) := by
  simp only [answer]
  cases fids.lookup fid with
  | none =>
      exact send_same hAlike _ _ _ _
  | some state =>
      rcases remove_alike hAlike (components state.path) with
        ⟨hDone, hAfter⟩
      simp only
      generalize m.remove (components state.path) = removed
        at hDone hAfter ⊢
      generalize m'.remove (components state.path) = removed'
        at hDone hAfter ⊢
      rcases removed with ⟨files, done⟩
      rcases removed' with ⟨files', done'⟩
      cases hDone
      cases done with
      | none =>
          exact send_same hAlike _ _ _ _
      | some done =>
          exact send_same hAfter _ _ _ _

/- A mode that is asked for is stored, and asked by nobody. -/
theorem twstat_alike
    (hasher : Hasher)
    (hAlike : Alike Attrs.SameButMode m m')
    {record record' rest rest' : Bytes}
    {stat stat' : Stat}
    (hRecord : decodeStat.run record = .ok (stat, rest))
    (hRecord' :
      decodeStat.run record' = .ok (stat', rest'))
    (hStat : stat.SameButMode stat')
    (clock : Clock)
    (tag : UInt16)
    (fids : FidTable)
    (fid : UInt32) :
    FlatAnswer.Alike
      (m.answer hasher clock tag fids (.twstat fid record))
      (m'.answer hasher clock tag fids
        (.twstat fid record')) := by
  simp only [answer]
  cases fids.lookup fid with
  | none =>
      exact send_same hAlike _ _ _ _
  | some state =>
      simp only [hRecord, hRecord']
      have hResult :=
        wstatFromStat_alike hAlike hStat
          (components state.path)
      generalize
        m.wstatFromStat _ stat = result,
        m'.wstatFromStat _ stat' = result'
        at hResult ⊢
      cases hResult with
      | error cause =>
          exact .panicked true
      | ok hAfter done =>
          cases done with
          | none =>
              exact send_same hAlike _ _ _ _
          | some done =>
              exact send_same hAfter _ _ _ _

theorem topen_alike
    (hasher : Hasher)
    (hAlike : Alike Attrs.SameButMode m m')
    (clock : Clock)
    (tag : UInt16)
    (fids : FidTable)
    (fid : UInt32)
    (mode : UInt8) :
    FlatAnswer.Alike
      (m.answer hasher clock tag fids (.topen fid mode))
      (m'.answer hasher clock tag fids
        (.topen fid mode)) := by
  simp only [answer]
  cases fids.lookup fid with
  | none =>
      exact send_same hAlike _ _ _ _
  | some state =>
      rcases hAlike.cases (components state.path) with
        ⟨hNone, hNone'⟩ |
          ⟨attrs, attrs', hSome, hSome', hSame⟩
      · simp only [hNone, hNone']
        exact send_same hAlike _ _ _ _
      · simp only [hSome, hSome', hSame.qid_eq hasher]
        exact send_same hAlike _ _ _ _

/- A stat shows the modes, and takes the same room. -/
theorem tstat_alike
    (hasher : Hasher)
    (hAlike : Alike Attrs.SameButMode m m')
    (clock : Clock)
    (tag : UInt16)
    (fids : FidTable)
    (fid : UInt32) :
    FlatAnswer.Alike
      (m.answer hasher clock tag fids (.tstat fid))
      (m'.answer hasher clock tag fids (.tstat fid)) := by
  simp only [answer]
  cases fids.lookup fid with
  | none =>
      exact send_same hAlike _ _ _ _
  | some state =>
      rcases hAlike.cases (components state.path) with
        ⟨hNone, hNone'⟩ |
          ⟨attrs, attrs', hSome, hSome', hSame⟩
      · simp only [hNone, hNone']
        exact send_same hAlike _ _ _ _
      · simp only [hSome, hSome']
        have hType :
            (Reply.rstat
                (attrs.stat hasher state.path)).msgType =
              (Reply.rstat
                (attrs'.stat hasher state.path)).msgType :=
          rfl
        apply send_records hAlike tag true fids hType
        · exact Or.inl rfl
        · exact (hSame.length_stat hasher state.path).symm

theorem twalk_alike
    (hasher : Hasher)
    (hAlike : Alike Attrs.SameButMode m m')
    (clock : Clock)
    (tag : UInt16)
    (fids : FidTable)
    (fid newfid : UInt32)
    (nwname : UInt16)
    (names : Bytes) :
    FlatAnswer.Alike
      (m.answer hasher clock tag fids
        (.twalk fid newfid nwname names))
      (m'.answer hasher clock tag fids
        (.twalk fid newfid nwname names)) := by
  simp only [answer, walkNames_alike hasher hAlike,
    walkTarget_alike hasher hAlike]
  cases m'.walkNames hasher nwname.toNat names
      (walkBase fids fid) [] with
  | error err =>
      exact .ended
  | ok walked =>
      cases walked with
      | error message =>
          exact send_same hAlike _ _ _ _
      | ok target =>
          rcases target with ⟨path, qids⟩
          simp only
          cases m'.walkTarget hasher path qids with
          | error message | ok newQid =>
              exact send_same hAlike _ _ _ _

/-
  Requests that are the same but for permission bits have
  such answers.
-/
theorem answer_alike
    (hasher : Hasher)
    (clock : Clock)
    (tag : UInt16)
    (fids : FidTable)
    {req req' : Request}
    (hAlike : Alike Attrs.SameButMode m m')
    (hReq : req.SameButMode req') :
    FlatAnswer.Alike (m.answer hasher clock tag fids req)
      (m'.answer hasher clock tag fids req') := by
  cases hReq with
  | attach fid afid afid' uname uname' aname aname' =>
      exact tattach_alike hasher hAlike _ _ _ _ _ _ _ _ _ _
  | create hKind fid name mode mode' =>
      exact tcreate_alike hasher hAlike hKind _ _ _ _ _ _ _
  | wstat hRecord hRecord' hStat fid =>
      exact twstat_alike hasher hAlike hRecord hRecord' hStat
        _ _ _ _
  | same =>
      cases req with
      | tversion msize version | tauth | tflush
      | unsupported | tclunk fid =>
          simp only [answer, refuse]
          exact send_same hAlike _ _ _ _
      | tattach fid afid uname aname =>
          exact tattach_alike hasher hAlike
            _ _ _ _ _ _ _ _ _ _
      | tclone fid newfid =>
          simp only [answer]
          cases fids.lookup fid with
          | none | some state =>
              exact send_same hAlike _ _ _ _
      | twalk fid newfid nwname names =>
          exact twalk_alike hasher hAlike _ _ _ _ _ _ _
      | topen fid mode =>
          exact topen_alike hasher hAlike _ _ _ _ _
      | tstat fid =>
          exact tstat_alike hasher hAlike _ _ _ _
      | tread fid offset count =>
          exact tread_alike hasher hAlike _ _ _ _ _ _
      | twrite fid offset buffer =>
          exact twrite_alike hasher hAlike _ _ _ _ _ _
      | tremove fid =>
          exact tremove_alike hasher hAlike _ _ _ _
      | tcreate fid name perm mode =>
          exact tcreate_alike hasher hAlike rfl
            _ _ _ _ _ _ _
      | twstat fid record =>
          cases hRecord : decodeStat.run record with
          | error err =>
              simp only [answer, hRecord]
              cases fids.lookup fid with
              | none | some state =>
                  exact send_same hAlike _ _ _ _
          | ok decoded =>
              have hStat :
                  decoded.1.SameButMode decoded.1 :=
                ⟨decoded.1.mode, rfl, Iff.rfl, rfl⟩
              exact twstat_alike hasher hAlike hRecord hRecord
                hStat _ _ _ _

end FlatFs

end Planten

------------------------------------------------------------
-- Runs of Two Modes
------------------------------------------------------------

namespace Planten

namespace FlatServer

variable {srv srv' : FlatServer}

theorem SameButMode.answer
    (hSame : srv.SameButMode srv')
    {msgType : UInt8}
    {body body' : Bytes}
    {req req' : Request}
    (hDecode : Request.decode msgType body = .ok req)
    (hDecode' : Request.decode msgType body' = .ok req')
    (hReq : req.SameButMode req')
    (hasher : Hasher)
    (fids : FidTable)
    (tag : UInt16)
    (clock : Clock) :
    FlatAnswer.Alike
      (srv.answer hasher fids msgType tag body clock)
      (srv'.answer hasher fids msgType tag body' clock) := by
  have hLocks : req'.locks fids = req.locks fids := by
    cases hReq with
    | wstat hRecord hRecord' hStat fid =>
        simp only [Request.locks, hRecord, hRecord']
        rfl
    | _ =>
        rfl
  unfold FlatServer.answer
  simp only [hDecode, hDecode', hLocks, hSame.poisoned]
  split_ifs
  · exact .panicked false
  · exact FlatFs.answer_alike hasher clock tag fids
      hSame.files hReq

/- The answers decide the servers after them. -/
theorem SameButMode.settle
    (hSame : srv.SameButMode srv')
    {answer answer' : FlatAnswer}
    (hAnswer : answer.Alike answer')
    (conn : Nat) :
    (srv.settle conn answer).SameButMode
      (srv'.settle conn answer') := by
  cases hAnswer with
  | served hFiles fids hFrame =>
      refine ⟨hFiles, hSame.poisoned, ?_⟩
      simp only [FlatServer.settle, hSame.conns]
  | ended =>
      refine ⟨hSame.files, hSame.poisoned, ?_⟩
      simp only [FlatServer.settle, hSame.conns]
  | panicked poisons =>
      refine ⟨hSame.files, ?_, ?_⟩
      · simp only [FlatServer.settle, hSame.poisoned]
      · simp only [FlatServer.settle, hSame.conns]

/- A request on both servers. -/
theorem SameButMode.request
    (hSame : srv.SameButMode srv')
    {msgType : UInt8}
    {body body' : Bytes}
    {req req' : Request}
    (hDecode : Request.decode msgType body = .ok req)
    (hDecode' : Request.decode msgType body' = .ok req')
    (hReq : req.SameButMode req')
    (hasher : Hasher)
    (conn : Nat)
    (tag : UInt16)
    (clock : Clock) :
    (srv.step hasher
        (.request conn msgType tag body clock)).SameButMode
      (srv'.step hasher
        (.request conn msgType tag body' clock)) ∧
      SameButModes
        (srv.sent hasher
          (.request conn msgType tag body clock))
        (srv'.sent hasher
          (.request conn msgType tag body' clock)) := by
  have hConns : srv.conns conn = srv'.conns conn :=
    congrFun hSame.conns conn
  simp only [step, sent, handle, hConns]
  cases srv'.conns conn with
  | none =>
      exact ⟨hSame, rfl, rfl, Or.inl rfl⟩
  | some fids =>
      have hAnswer :=
        hSame.answer hDecode hDecode' hReq hasher fids tag
          clock
      refine ⟨hSame.settle hAnswer conn, ?_⟩
      simp only [Option.map_some]
      generalize
        srv.answer hasher fids msgType tag body clock = answer,
        srv'.answer hasher fids msgType tag body' clock =
          answer' at hAnswer ⊢
      cases hAnswer with
      | served hFiles fids hFrame =>
          exact hFrame
      | ended | panicked poisons =>
          exact ⟨rfl, rfl, Or.inl rfl⟩

/- A frame that is no request ends both connections. -/
theorem SameButMode.malformed
    (hSame : srv.SameButMode srv')
    {msgType : UInt8}
    {body : Bytes}
    {err : IoError}
    (hDecode : Request.decode msgType body = .error err)
    (hasher : Hasher)
    (conn : Nat)
    (tag : UInt16)
    (clock : Clock) :
    (srv.step hasher
        (.request conn msgType tag body clock)).SameButMode
      (srv'.step hasher
        (.request conn msgType tag body clock)) ∧
      SameButModes
        (srv.sent hasher
          (.request conn msgType tag body clock))
        (srv'.sent hasher
          (.request conn msgType tag body clock)) := by
  have hConns : srv.conns conn = srv'.conns conn :=
    congrFun hSame.conns conn
  simp only [step, sent, handle, hConns]
  cases srv'.conns conn with
  | none =>
      exact ⟨hSame, rfl, rfl, Or.inl rfl⟩
  | some fids =>
      simp only [Option.map_some, FlatServer.answer, hDecode]
      exact ⟨hSame.settle .ended conn, rfl, rfl, Or.inl rfl⟩

theorem coupling (hasher : Hasher) :
    Run.Coupling (step hasher) (sent hasher) SameButMode
      Event.SameButMode SameButModes := by
  have hStep
      (srv srv' : FlatServer)
      (event event' : Event)
      (hSame : srv.SameButMode srv')
      (hEvent : event.SameButMode event') :
      (srv.step hasher event).SameButMode
          (srv'.step hasher event') ∧
        SameButModes (srv.sent hasher event)
          (srv'.sent hasher event') := by
    cases hEvent with
    | request hDecode hDecode' hReq conn tag clock =>
        exact hSame.request hDecode hDecode' hReq hasher conn
          tag clock
    | same =>
        cases event with
        | accept conn =>
            refine ⟨?_, rfl, rfl, Or.inl rfl⟩
            simp only [step, hSame.conns]
            split_ifs
            · exact hSame
            · exact ⟨hSame.files, hSame.poisoned, rfl⟩
        | close conn =>
            refine ⟨⟨hSame.files, hSame.poisoned, ?_⟩, rfl,
              rfl, Or.inl rfl⟩
            simp only [step, hSame.conns]
        | request conn msgType tag body clock =>
            cases hDecode : Request.decode msgType body with
            | error err =>
                exact hSame.malformed hDecode hasher conn tag
                  clock
            | ok req =>
                exact hSame.request hDecode hDecode
                  (.same req) hasher conn tag clock
  exact ⟨fun s t e e' hR hE => (hStep s t e e' hR hE).1,
    fun s t e e' hR hE => (hStep s t e e' hR hE).2⟩

end FlatServer

namespace Server

/-
  Runs on events that are the same but for permission bits,
  and for who attaches, are the same but for these bits: so
  is every reply, and so are the files at the end.
-/
theorem permissions_decide_nothing
    (hasher : Hasher)
    {srv srv' : Server}
    {events events' : List Event}
    (hStart : srv.SameButMode srv')
    (hEvents :
      List.Forall₂ Event.SameButMode events events') :
    (Run.final (step hasher) srv events).SameButMode
        (Run.final (step hasher) srv' events') ∧
      List.Forall₂ SameButModes
        (Run.outputs (step hasher) (sent hasher) srv events)
        (Run.outputs (step hasher) (sent hasher) srv'
          events') := by
  unfold SameButMode
  rw [flat_final, flat_final, flat_outputs, flat_outputs]
  exact ⟨(FlatServer.coupling hasher).final hStart hEvents,
    (FlatServer.coupling hasher).outputs hStart hEvents⟩

/- A user attaches, and makes a file of some permissions. -/
def makesFile
    (user : String)
    (perm : UInt32) : List Event :=
  [.accept 7,
    .request 7 TATTACH 1
      (encodeAttachBody 0 none user "") (fun _ => 0),
    .request 7 TCREATE 2
      (encodeCreateBody 0 "plan" perm 1) (fun _ => 0)]

theorem permissions_decide_nothing_of_makesFile :
    (Run.final (step (fun _ _ => 0))
        (start (RamFs.fresh 0))
        (makesFile "glenda" 0o600)).SameButMode
      (Run.final (step (fun _ _ => 0))
        (start (RamFs.fresh 0))
        (makesFile "guest" 0o777)) ∧
      List.Forall₂ SameButModes
        (Run.outputs (step (fun _ _ => 0))
          (sent (fun _ _ => 0)) (start (RamFs.fresh 0))
          (makesFile "glenda" 0o600))
        (Run.outputs (step (fun _ _ => 0))
          (sent (fun _ _ => 0)) (start (RamFs.fresh 0))
          (makesFile "guest" 0o777)) := by
  have hKind : SameKind 0o600 0o777 := rfl
  apply permissions_decide_nothing
  · exact ⟨PathMap.Alike.refl Attrs.SameButMode.refl _, rfl,
      rfl⟩
  · refine .cons (.same _) (.cons ?_ (.cons ?_ .nil))
    · exact .request
        (Request.decode_attach 0 none (by decide) (by decide))
        (Request.decode_attach 0 none (by decide) (by decide))
        (.attach _ _ _ _ _ _ _) 7 1 _
    · exact .request
        (Request.decode_create 0 0o600 1 (by decide))
        (Request.decode_create 0 0o777 1 (by decide))
        (.create hKind _ _ _ _) 7 2 _

end Server

end Planten
