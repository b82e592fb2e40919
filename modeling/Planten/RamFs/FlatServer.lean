import Planten.Library.ChildKeys
import Planten.Library.Simulations
import Planten.RamFs.Poisoning

/-
  A file server over the flat map.

  `FlatServer` is what the server is for: it answers every
  request from a map of key paths and the fid tables of its
  connections.  The server over the tree computes exactly
  these answers, byte by byte, whatever the order of the
  requests on its connections.

  Key definitions include:
    * `FlatFs.readData`, `FlatFs.walkNames`
    * `FlatAnswer`
    * `FlatFs.answer`
    * `FlatServer.step`, `FlatServer.sent`
    * `Server.flat`

  Key theorems include:
    * `FlatFs.answer_of_effect`
    * `FlatFs.answer_of_hazard`
    * `Server.handle_flat`
    * `Server.refines_flatServer`
-/

------------------------------------------------------------
-- Reports from the Map
------------------------------------------------------------

namespace Planten

/- The qid of a node, under the path that led to it. -/
def Attrs.qid
    (hasher : Hasher)
    (path : String)
    (attrs : Attrs) : Qid :=
  ⟨if attrs.IsDir then 0x80 else 0x00,
    attrs.mtime, hasher path attrs.mtime⟩

/- The stat of a node. -/
def Attrs.stat
    (hasher : Hasher)
    (path : String)
    (attrs : Attrs) : Stat where
  type_ := 0
  dev := 0
  qid := attrs.qid hasher path
  mode := attrs.mode
  atime := attrs.atime
  mtime := attrs.mtime
  length := UInt64.ofNat attrs.data.length
  name := attrs.name
  uid := attrs.uid
  gid := attrs.gid
  muid := attrs.uid

theorem inodeToStat_eq
    (hasher : Hasher)
    (path : String)
    (inode : Inode) :
    inodeToStat hasher path inode =
      inode.val.stat hasher path := rfl

namespace FlatFs

variable (hasher : Hasher) (m : FlatFs)

/- The stat record of one entry of a directory. -/
def entryBytes
    (path entry : String) : Bytes :=
  match resolveStep path entry with
  | none => []
  | some childPath =>
      match m (components childPath) with
      | none => []
      | some attrs =>
          encodeStatPayload (attrs.stat hasher childPath)

/- The stat records of a directory. -/
noncomputable def dirBytes
    (path : String) : Bytes :=
  (m.childKeys (components path)).flatMap
    (m.entryBytes hasher path)

/- What a read of a path finds, or the text of the error. -/
noncomputable def readData
    (path : String) : Except String Bytes :=
  match m (components path) with
  | none => .error "file not found"
  | some attrs =>
      if attrs.IsDir then
        .ok (m.dirBytes hasher path)
      else if components path = [] then
        .error "file missing during read"
      else
        .ok attrs.data

/- The steps of a walk, as far as they lead. -/
def walkNames :
    Nat → Bytes → String → List Qid →
      Except IoError (Except String (String × List Qid))
| 0, _, currentPath, qids => .ok (.ok (currentPath, qids))
| n + 1, cursor, currentPath, qids => do
    let (name, cursor) ← readString.run cursor
    match resolveStep currentPath name with
    | some nextPath =>
        match m (components nextPath) with
        | some attrs =>
            walkNames n cursor nextPath
              (qids ++ [attrs.qid hasher nextPath])
        | none =>
            .ok (.error ("walk failed: component '" ++ name ++
              "' not found"))
    | none =>
        .ok (.error ("walk failed: invalid component '" ++
          name ++ "'"))

/- The qid a walk ends with. -/
def walkTarget
    (path : String)
    (qids : List Qid) : Except String Qid :=
  match qids.getLast? with
  | some last => .ok last
  | none =>
      match m (components path) with
      | some attrs => .ok (attrs.qid hasher path)
      | none => .error "walk failed: target missing"

/- A create request: a directory or an empty file. -/
def create
    (clock : Clock)
    (p : List String)
    (perm : UInt32) : Except Panic (FlatFs × Unit) :=
  if perm &&& DMDIR ≠ 0 then
    m.createDir p clock
  else
    m.createFile p [] clock

end FlatFs

end Planten

------------------------------------------------------------
-- Answers
------------------------------------------------------------

namespace Planten

/-
  What a request comes to: a reply, with the files and the
  fids after it, the end of the connection, or a panic, which
  may poison the lock.
-/
inductive FlatAnswer where
| served (files : FlatFs) (fids : FidTable) (frame : Bytes)
| ended
| panicked (poisons : Bool)

/- Send a reply, under the lock or not. -/
def FlatAnswer.send
    (tag : UInt16)
    (locked : Bool)
    (files : FlatFs)
    (fids : FidTable)
    (reply : Reply) : FlatAnswer :=
  match reply.frame tag with
  | .ok frame => .served files fids frame
  | .error _ => .panicked locked

namespace FlatFs

open FlatAnswer (send)

variable (hasher : Hasher) (clock : Clock) (tag : UInt16)
variable (m : FlatFs) (fids : FidTable)

/- Refuse a request with a message. -/
def refuse (message : String) : FlatAnswer :=
  send tag false m fids (.rerror message)

/- The path a walk starts from: an unknown fid is the root. -/
def walkBase (fid : UInt32) : String :=
  match fids.lookup fid with
  | some state => state.path
  | none => "/"

/- The answer to a request while the lock is not poisoned. -/
noncomputable def answer : Request → FlatAnswer
| .tversion _ _ =>
    send tag false m fids (.rversion 131072 "9P2000")
| .tauth => send tag false m fids (.rauth ⟨0, 0, 0⟩)
| .tflush => send tag false m fids .rflush
| .unsupported => refuse tag m fids "unsupported message"
| .tclunk fid =>
    send tag false m (KeyMap.erase fid fids) .rclunk
| .tattach fid _ _ _ =>
    match m [] with
    | none => refuse tag m fids "root missing"
    | some root =>
        send tag false m
          (KeyMap.insert fid
            (FidState.new "/" (root.qid hasher "/")) fids)
          (.rattach (root.qid hasher "/"))
| .tclone fid newfid =>
    match fids.lookup fid with
    | none => refuse tag m fids "unknown fid"
    | some state =>
        send tag false m (KeyMap.insert newfid state fids)
          .rclone
| .twalk fid newfid nwname names =>
    match m.walkNames hasher nwname.toNat names
        (walkBase fids fid) [] with
    | .error _ => .ended
    | .ok (.error message) => refuse tag m fids message
    | .ok (.ok (path, qids)) =>
        match m.walkTarget hasher path qids with
        | .error message => refuse tag m fids message
        | .ok newQid =>
            send tag false m
              (KeyMap.insert newfid
                (FidState.new path newQid) fids)
              (.rwalk qids)
| .topen fid mode =>
    match fids.lookup fid with
    | none => refuse tag m fids "unknown fid"
    | some state =>
        match m (components state.path) with
        | none => refuse tag m fids "file not found"
        | some attrs =>
            send tag false m
              (KeyMap.insert fid
                { state with
                  qid := attrs.qid hasher state.path
                  openMode := some mode } fids)
              (.ropen (attrs.qid hasher state.path) 0)
| .tstat fid =>
    match fids.lookup fid with
    | none => refuse tag m fids "unknown fid"
    | some state =>
        match m (components state.path) with
        | none => refuse tag m fids "file not found"
        | some attrs =>
            send tag true m fids
              (.rstat (attrs.stat hasher state.path))
| .tread fid offset count =>
    match fids.lookup fid with
    | none => refuse tag m fids "unknown fid"
    | some state =>
        match state.openMode with
        | none => refuse tag m fids "fid not open"
        | some mode =>
            if modeAllowsRead mode then
              match m.readData hasher state.path with
              | .error message => refuse tag m fids message
              | .ok data =>
                  match readWindow .dev data offset count with
                  | .error _ => .panicked false
                  | .ok chunk =>
                      send tag false m fids (.rread chunk)
            else
              refuse tag m fids "fid not open for read"
| .twrite fid offset buffer =>
    match fids.lookup fid with
    | none => refuse tag m fids "unknown fid"
    | some state =>
        match state.openMode with
        | none => refuse tag m fids "fid not open"
        | some mode =>
            if modeAllowsWrite mode then
              match m.write (components state.path) offset
                  buffer clock with
              | .error _ => .panicked true
              | .ok (m', written) =>
                  send tag false m' fids
                    (.rwrite (written.getD 0))
            else
              refuse tag m fids "fid not open for write"
| .tcreate fid name perm _ =>
    match fids.lookup fid with
    | none => refuse tag m fids "unknown fid"
    | some state =>
        match resolveStep state.path name with
        | none => refuse tag m fids "invalid target path"
        | some newPath =>
            if (m (components newPath)).isSome then
              refuse tag m fids "file exists"
            else
              match m.create clock (components newPath)
                  perm with
              | .error _ => .panicked true
              | .ok (m', ()) =>
                  match m' (components newPath) with
                  | none => .panicked true
                  | some attrs =>
                      send tag true m' fids
                        (.rcreate (attrs.qid hasher newPath)
                          0)
| .tremove fid =>
    match fids.lookup fid with
    | none => refuse tag m fids "unknown fid"
    | some state =>
        match m.remove (components state.path) with
        | (m', some ()) =>
            send tag false m' (KeyMap.erase fid fids) .rremove
        | (_, none) =>
            send tag false m (KeyMap.erase fid fids)
              (.rerror "remove failed")
| .twstat fid record =>
    match fids.lookup fid with
    | none => refuse tag m fids "unknown fid"
    | some state =>
        match decodeStat.run record with
        | .error err =>
            refuse tag m fids
              ("invalid stat format: " ++ err.message)
        | .ok (stat, _) =>
            match m.wstatFromStat (components state.path)
                stat with
            | .error _ => .panicked true
            | .ok (m', some ()) =>
                send tag true m' fids .rwstat
            | .ok (_, none) =>
                send tag true m fids (.rerror "wstat failed")

end FlatFs

end Planten

------------------------------------------------------------
-- Servers over the Map
------------------------------------------------------------

namespace Planten

/- The files, the lock, and the fids of the connections. -/
structure FlatServer where
  files : FlatFs
  poisoned : Bool
  conns : Nat → Option FidTable

namespace FlatServer

variable (hasher : Hasher)

/- The answer to a frame on an open connection. -/
noncomputable def answer
    (srv : FlatServer)
    (fids : FidTable)
    (msgType : UInt8)
    (tag : UInt16)
    (body : Bytes)
    (clock : Clock) : FlatAnswer :=
  match Request.decode msgType body with
  | .error _ => .ended
  | .ok req =>
      if srv.poisoned && req.locks fids then
        .panicked false
      else
        srv.files.answer hasher clock tag fids req

/- The answer to an event, if it is a request. -/
noncomputable def handle
    (srv : FlatServer) :
    Event → Option FlatAnswer
| .request conn msgType tag body clock =>
    (srv.conns conn).map (fun fids =>
      srv.answer hasher fids msgType tag body clock)
| _ => none

/- The server after an answer on a connection. -/
def settle
    (srv : FlatServer)
    (conn : Nat) : FlatAnswer → FlatServer
| .served files fids _ =>
    ⟨files, srv.poisoned,
      Function.update srv.conns conn (some fids)⟩
| .ended =>
    { srv with conns := Function.update srv.conns conn none }
| .panicked poisons =>
    ⟨srv.files, srv.poisoned || poisons,
      Function.update srv.conns conn none⟩

noncomputable def step
    (srv : FlatServer)
    (event : Event) : FlatServer :=
  match event with
  | .accept conn =>
      if (srv.conns conn).isSome then
        srv
      else
        { srv with
          conns := Function.update srv.conns conn (some []) }
  | .close conn =>
      { srv with
        conns := Function.update srv.conns conn none }
  | .request conn _ _ _ _ =>
      (srv.handle hasher event).elim srv (srv.settle conn)

noncomputable def sent
    (srv : FlatServer)
    (event : Event) : Bytes :=
  match srv.handle hasher event with
  | some (.served _ _ frame) => frame
  | _ => []

end FlatServer

/- What a server is, seen over its map. -/
def Server.flat (srv : Server) : FlatServer :=
  ⟨srv.ramfs.view, srv.poisoned, srv.conns⟩

end Planten

------------------------------------------------------------
-- Reports of the Tree
------------------------------------------------------------

namespace Planten

namespace FlatFs

variable {hasher : Hasher} {fs : RamFs}

/- The node at a path, as the map has it. -/
theorem view_eq_of_stat
    {path : String}
    {found : Option Inode}
    (hStat : fs.stat path = found) :
    fs.view (components path) = found.map KeyTree.val := by
  rw [← fs.stat_map_val, hStat]

theorem entryBytes_view
    (path : String) :
    Planten.entryBytes hasher fs path =
      fs.view.entryBytes hasher path := by
  funext entry
  unfold Planten.entryBytes entryBytes
  cases resolveStep path entry with
  | none =>
      rfl
  | some childPath =>
      simp only
      cases hStat : fs.stat childPath with
      | none =>
          rw [view_eq_of_stat hStat]
          rfl
      | some child =>
          rw [view_eq_of_stat hStat]
          rfl

theorem readData_view
    (path : String) :
    Planten.readData hasher fs path =
      fs.view.readData hasher path := by
  unfold Planten.readData readData
  cases hStat : fs.stat path with
  | none =>
      rw [view_eq_of_stat hStat]
      rfl
  | some inode =>
      have hNode := RamFs.view_of_stat hStat
      rw [hNode]
      simp only
      by_cases hDir : inode.val.IsDir
      · have hListed : fs.listDir path ≠ none := by
          rw [Ne, RamFs.listDir_eq_none_iff, hNode]
          exact Option.some_ne_none _
        rcases Option.ne_none_iff_exists'.mp hListed with
          ⟨names, hList⟩
        rw [if_pos hDir, if_pos hDir, Planten.dirBytes, hList,
          dirBytes, RamFs.childKeys_view hList, entryBytes_view]
      · rw [if_neg hDir, if_neg hDir]
        by_cases hNil : components path = []
        · rw [if_pos hNil, RamFs.readFile, hNil]
        · rw [if_neg hNil, RamFs.readFile_eq fs hNil, hNode]
          rfl

theorem walkNames_view
    (n : Nat)
    (cursor : Bytes)
    (path : String)
    (qids : List Qid) :
    Planten.walkNames hasher fs n cursor path qids =
      fs.view.walkNames hasher n cursor path qids := by
  induction n generalizing cursor path qids with
  | zero =>
      rfl
  | succ n ih =>
      unfold Planten.walkNames walkNames
      cases readString.run cursor with
      | error err =>
          rfl
      | ok r =>
          rcases r with ⟨name, rest⟩
          simp only [bind, Except.bind]
          cases resolveStep path name with
          | none =>
              rfl
          | some nextPath =>
              simp only
              cases hStat : fs.stat nextPath with
              | none =>
                  rw [view_eq_of_stat hStat]
                  rfl
              | some inode =>
                  rw [view_eq_of_stat hStat]
                  exact ih _ _ _

theorem walkTarget_view
    (path : String)
    (qids : List Qid) :
    Planten.walkTarget hasher fs path qids =
      fs.view.walkTarget hasher path qids := by
  unfold Planten.walkTarget walkTarget
  cases qids.getLast? with
  | some last =>
      rfl
  | none =>
      simp only
      cases hStat : fs.stat path with
      | none =>
          rw [view_eq_of_stat hStat]
          rfl
      | some inode =>
          rw [view_eq_of_stat hStat]
          rfl

theorem create_view
    (clock : Clock)
    (path : String)
    (perm : UInt32) :
    RamFs.viewResult (createNode clock fs path perm) =
      fs.view.create clock (components path) perm := by
  unfold createNode create
  split
  · exact RamFs.view_createDir fs path clock
  · exact RamFs.view_createFile fs path [] clock

theorem walkBase_eq
    (fids : FidTable)
    (fid : UInt32) :
    (walkBaseState hasher fs fids fid).path =
      walkBase fids fid := by
  unfold walkBaseState walkBase
  cases fids.lookup fid with
  | none =>
      rfl
  | some state =>
      rfl

end FlatFs

end Planten

------------------------------------------------------------
-- Effects Are Answers
------------------------------------------------------------

namespace Planten

namespace FlatFs

open FlatAnswer (send)

variable {hasher : Hasher} {clock : Clock} {tag : UInt16}
variable {m : FlatFs} {fs fs' : RamFs}
variable {fids fids' : FidTable}

theorem send_of_frame
    {reply : Reply}
    {frame : Bytes}
    (hFrame : reply.frame tag = .ok frame)
    (locked : Bool)
    (files : FlatFs) :
    send tag locked files fids reply =
      .served files fids frame := by
  rw [send, hFrame]

/- The map refuses what the tree refuses. -/
theorem answer_of_refusal
    {req : Request}
    {message : String}
    {frame : Bytes}
    (hRefusal : Refusal hasher fs fids req message)
    (hFrame : (Reply.rerror message).frame tag = .ok frame) :
    fs.view.answer hasher clock tag fids req =
      .served fs.view fids frame := by
  have hSend (locked : Bool) :
      send tag locked fs.view fids (.rerror message) =
        .served fs.view fids frame :=
    send_of_frame hFrame locked fs.view
  cases hRefusal with
  | unsupported =>
      exact hSend false
  | unknownFid hSource hNone =>
      cases req with
      | topen | tcreate | tread | twrite | tremove | tstat
      | twstat | tclone =>
          cases hSource
          simp only [answer, hNone]
          exact hSend false
      | _ =>
          cases hSource
  | createPath hFid hStep =>
      simp only [answer, hFid, hStep]
      exact hSend false
  | createExists hFid hStep hExists =>
      rename_i newPath
      have hSome :
          (fs.view (components newPath)).isSome = true := by
        rw [← fs.stat_map_val, Option.isSome_map]
        exact hExists
      simp only [answer, hFid, hStep, hSome, if_true]
      exact hSend false
  | walkName hNames =>
      rw [walkNames_view, walkBase_eq] at hNames
      simp only [answer, hNames]
      exact hSend false
  | walkTarget hNames hTarget =>
      rw [walkNames_view, walkBase_eq] at hNames
      rw [walkTarget_view] at hTarget
      simp only [answer, hNames, hTarget]
      exact hSend false
  | statMissing hFid hNone | openMissing hFid hNone =>
      simp only [answer, hFid, view_eq_of_stat hNone,
        Option.map_none]
      exact hSend false
  | readNotOpen hFid hMode | writeNotOpen hFid hMode =>
      simp only [answer, hFid, hMode]
      exact hSend false
  | readMode hFid hMode hDenied
  | writeMode hFid hMode hDenied =>
      simp only [answer, hFid, hMode, hDenied,
        Bool.false_eq_true, if_false]
      exact hSend false
  | readData hFid hMode hAllowed hData =>
      rw [readData_view] at hData
      simp only [answer, hFid, hMode, hAllowed, if_true,
        hData]
      exact hSend false
  | wstatFormat hFid hRecord =>
      simp only [answer, hFid, hRecord]
      exact hSend false
  | wstatFailed hFid hRecord hOp =>
      have hFlat :=
        RamFs.viewResult_ok hOp (RamFs.view_wstatFromStat _ _ _)
      simp only [answer, hFid, hRecord, hFlat]
      exact hSend true

/- The map answers what the tree answers. -/
theorem answer_of_effect
    {req : Request}
    {reply : Reply}
    {frame : Bytes}
    (hEffect :
      Effect hasher clock fs fids req fs' fids' reply)
    (hFrame : reply.frame tag = .ok frame) :
    fs.view.answer hasher clock tag fids req =
      .served fs'.view fids' frame := by
  cases hEffect with
  | refused hRefusal =>
      exact answer_of_refusal hRefusal hFrame
  | version | auth | flush | clunk =>
      exact send_of_frame hFrame false fs.view
  | attach =>
      simp only [answer, RamFs.view_nil]
      exact send_of_frame hFrame false fs.view
  | clone hFid =>
      simp only [answer, hFid]
      exact send_of_frame hFrame false fs.view
  | walk hNames hTarget =>
      rw [walkNames_view, walkBase_eq] at hNames
      rw [walkTarget_view] at hTarget
      simp only [answer, hNames, hTarget]
      exact send_of_frame hFrame false fs.view
  | opened hFid hStat =>
      simp only [answer, hFid, RamFs.view_of_stat hStat]
      exact send_of_frame hFrame false fs.view
  | stat hFid hStat =>
      simp only [answer, hFid, RamFs.view_of_stat hStat]
      exact send_of_frame hFrame true fs.view
  | read hFid hMode hAllowed hData hWindow =>
      rw [readData_view] at hData
      simp only [answer, hFid, hMode, hAllowed, if_true,
        hData, hWindow]
      exact send_of_frame hFrame false fs.view
  | write hFid hMode hAllowed hOp =>
      have hFlat :=
        RamFs.viewResult_ok hOp
          (RamFs.view_write _ _ _ _ _)
      simp only [answer, hFid, hMode, hAllowed, if_true,
        hFlat]
      exact send_of_frame hFrame false fs'.view
  | create hFid hStep hFresh hOp hStat =>
      have hFlat :=
        RamFs.viewResult_ok hOp (create_view clock _ _)
      simp only [answer, hFid, hStep,
        view_eq_of_stat hFresh, Option.map_none,
        Option.isSome_none, Bool.false_eq_true, if_false,
        hFlat, RamFs.view_of_stat hStat]
      exact send_of_frame hFrame true fs'.view
  | remove hFid hOp =>
      have hFlat :=
        RamFs.viewResult_ok hOp (RamFs.view_remove _ _)
      simp only [answer, hFid, Except.ok.inj hFlat]
      exact send_of_frame hFrame false fs'.view
  | removeFailed hFid hOp =>
      have hFlat :=
        RamFs.viewResult_ok hOp (RamFs.view_remove _ _)
      have hSame := RamFs.remove_eq_none hOp
      subst hSame
      simp only [answer, hFid, Except.ok.inj hFlat]
      exact send_of_frame hFrame false fs'.view
  | wstat hFid hRecord hOp =>
      have hFlat :=
        RamFs.viewResult_ok hOp (RamFs.view_wstatFromStat _ _ _)
      simp only [answer, hFid, hRecord, hFlat]
      exact send_of_frame hFrame true fs'.view

/- The map panics where the tree does. -/
theorem answer_of_hazard
    {s : Session}
    {req : Request}
    {cause : Panic}
    {poisons : Bool}
    (hUnpoisoned : s.poisoned = false)
    (hHazard :
      Hazard hasher clock tag s req cause poisons) :
    s.ramfs.view.answer hasher clock tag s.fids req =
      .panicked poisons := by
  cases hHazard with
  | poisonedLock hPoisoned =>
      cases hPoisoned.symm.trans hUnpoisoned
  | create hFid hStep hFresh hOp =>
      have hFlat :=
        (RamFs.viewResult_eq_error_iff.mpr hOp).symm.trans
          (create_view clock _ _)
      simp only [answer, hFid, hStep,
        view_eq_of_stat hFresh, Option.map_none,
        Option.isSome_none, Bool.false_eq_true, if_false,
        ← hFlat]
  | readWindow hFid hMode hAllowed hData hWindow =>
      rw [readData_view] at hData
      simp only [answer, hFid, hMode, hAllowed, if_true,
        hData, hWindow]
  | readFrame hFid hMode hAllowed hData hWindow hFrame =>
      rw [readData_view] at hData
      simp only [answer, hFid, hMode, hAllowed, if_true,
        hData, hWindow, send, hFrame]
  | write hFid hMode hAllowed hOp =>
      have hFlat :=
        (RamFs.viewResult_eq_error_iff.mpr hOp).symm.trans
          (RamFs.view_write _ _ _ _ _)
      simp only [answer, hFid, hMode, hAllowed, if_true,
        ← hFlat]
  | wstat hFid hRecord hOp =>
      have hFlat :=
        (RamFs.viewResult_eq_error_iff.mpr hOp).symm.trans
          (RamFs.view_wstatFromStat _ _ _)
      simp only [answer, hFid, hRecord, ← hFlat]
  | statFrame hFid hStat hFrame =>
      rw [inodeToStat_eq] at hFrame
      simp only [answer, hFid, RamFs.view_of_stat hStat,
        send, hFrame]

end FlatFs

end Planten

------------------------------------------------------------
-- The Server Refines the Flat One
------------------------------------------------------------

namespace Planten

/- A handler ends as an answer says. -/
inductive FlatAnswer.Of
    (s : Session) :
    EStateM.Result Fault Session Unit →
      FlatAnswer → Prop where
| served
    (fs : RamFs) (fids : FidTable) (frame : Bytes) :
    Of s (.ok () ⟨fs, s.poisoned, fids, s.sent ++ frame⟩)
      (.served fs.view fids frame)
| ended (err : IoError) :
    Of s (.error (.io err) s) .ended
| panicked (cause : Panic) (poisons : Bool) :
    Of s
      (.error (.panic cause)
        { s with poisoned := s.poisoned || poisons })
      (.panicked poisons)

namespace FlatAnswer

variable {hasher : Hasher} {clock : Clock} {tag : UInt16}
variable {s : Session}

theorem of_effect
    {req : Request}
    {fs : RamFs}
    {fids : FidTable}
    {reply : Reply}
    {frame : Bytes}
    (hEffect :
      Effect hasher clock s.ramfs s.fids req fs fids reply)
    (hFrame : reply.frame tag = .ok frame) :
    Of s (.ok () ⟨fs, s.poisoned, fids, s.sent ++ frame⟩)
      (s.ramfs.view.answer hasher clock tag s.fids req) := by
  rw [FlatFs.answer_of_effect hEffect hFrame]
  exact .served fs fids frame

/- While the lock is not poisoned, every outcome is answered. -/
theorem of_outcome
    {req : Request}
    {result : EStateM.Result Fault Session Unit}
    (hUnpoisoned : s.poisoned = false)
    (hOutcome :
      Outcome hasher clock tag s (.ok req) result) :
    Of s result
      (s.ramfs.view.answer hasher clock tag s.fids req) := by
  cases hOutcome with
  | badName hNames =>
      rw [FlatFs.walkNames_view, FlatFs.walkBase_eq] at hNames
      simp only [FlatFs.answer, hNames]
      exact .ended _
  | served hEffect hFrame =>
      exact of_effect hEffect hFrame
  | panicked hHazard =>
      rw [FlatFs.answer_of_hazard hUnpoisoned hHazard]
      exact .panicked _ _

/- Under a poisoned lock, a request that locks panics. -/
theorem of_poisoned
    {req : Request}
    {result : EStateM.Result Fault Session Unit}
    (hOutcome :
      Outcome hasher clock tag s (.ok req) result)
    (hPoisoned : PoisonedOutcome s (.ok req) result) :
    Of s result
      (if req.locks s.fids then
        .panicked false
      else
        s.ramfs.view.answer hasher clock tag s.fids req) := by
  cases hPoisoned with
  | locked hLocks =>
      rw [if_pos hLocks]
      have hPanicked := Of.panicked (s := s) .poisonedLock false
      rwa [Bool.or_false] at hPanicked
  | answered hFree =>
      rw [if_neg (by simp [hFree])]
      cases hOutcome with
      | served hEffect hFrame =>
          exact of_effect hEffect hFrame

end FlatAnswer

namespace Server

variable (hasher : Hasher) (srv : Server)

/- The handler of a frame ends as the flat server answers. -/
theorem handle_flat
    (fids : FidTable)
    (msgType : UInt8)
    (tag : UInt16)
    (body : Bytes)
    (clock : Clock) :
    FlatAnswer.Of (srv.session fids)
      (handleMessage hasher clock msgType tag body
        (srv.session fids))
      (srv.flat.answer hasher fids msgType tag body
        clock) := by
  have hOutcome :=
    handleMessage_outcome hasher clock tag body
      (srv.session fids) msgType
  unfold FlatServer.answer
  cases hDecode : Request.decode msgType body with
  | error err =>
      rw [hDecode] at hOutcome
      generalize
        handleMessage hasher clock msgType tag body
          (srv.session fids) = result at hOutcome ⊢
      cases hOutcome
      exact .ended err
  | ok req =>
      rw [hDecode] at hOutcome
      cases hLock : srv.poisoned with
      | false =>
          have hUnpoisoned : srv.flat.poisoned = false := hLock
          simp only [hUnpoisoned, Bool.false_and,
            Bool.false_eq_true, if_false]
          exact FlatAnswer.of_outcome hLock hOutcome
      | true =>
          have hPoisoned : srv.flat.poisoned = true := hLock
          have hEnd :=
            @handleMessage_poisoned (srv.session fids) hasher
              clock tag body hLock msgType
          rw [hDecode] at hEnd
          simp only [hPoisoned, Bool.true_and]
          exact FlatAnswer.of_poisoned hOutcome hEnd

/- The server after an answer, over the map. -/
theorem flat_settle
    {srv : Server}
    {fids : FidTable}
    {result : EStateM.Result Fault Session Unit}
    {answer : FlatAnswer}
    (hAnswer :
      FlatAnswer.Of (srv.session fids) result answer)
    (conn : Nat) :
    (srv.settle conn result).flat =
      srv.flat.settle conn answer := by
  cases hAnswer with
  | served fs fids frame | ended err
  | panicked cause poisons =>
      rfl

/- One event does to the map what it does to the tree. -/
theorem flat_step
    (event : Event) :
    (srv.step hasher event).flat =
        srv.flat.step hasher event ∧
      srv.sent hasher event =
        srv.flat.sent hasher event := by
  cases event with
  | close conn =>
      exact ⟨rfl, rfl⟩
  | accept conn =>
      exact ⟨apply_ite Server.flat _ _ _, rfl⟩
  | request conn msgType tag body clock =>
      cases hConn : srv.conns conn with
      | none =>
          have hFlat : srv.flat.conns conn = none := hConn
          simp only [step, sent, handle, FlatServer.step,
            FlatServer.sent, FlatServer.handle, hConn, hFlat,
            Option.map_none, Option.elim_none, and_self]
      | some fids =>
          have hFlat : srv.flat.conns conn = some fids :=
            hConn
          have hAnswer :=
            srv.handle_flat hasher fids msgType tag body clock
          simp only [step, sent, handle, FlatServer.step,
            FlatServer.sent, FlatServer.handle, hConn, hFlat,
            Option.map_some, Option.elim_some]
          refine ⟨flat_settle hAnswer conn, ?_⟩
          revert hAnswer
          generalize
            handleMessage hasher clock msgType tag body
              (srv.session fids) = result
          generalize
            srv.flat.answer hasher fids msgType tag body
              clock = answer
          intro hAnswer
          cases hAnswer with
          | served fs fids frame | ended err
          | panicked cause poisons =>
              rfl

/- The tree and its map step together. -/
theorem flat_simulation :
    Run.Simulation (step hasher) (sent hasher)
      (FlatServer.step hasher) (FlatServer.sent hasher)
      (fun _ _ => True)
      (fun srv flatSrv => srv.flat = flatSrv)
      (fun bytes bytes' => bytes = bytes') where
  step := by
    rintro srv _ event rfl _
    exact (srv.flat_step hasher event).1
  out := by
    rintro srv _ event rfl _
    exact (srv.flat_step hasher event).2

theorem flat_final (events : List Event) :
    (Run.final (step hasher) srv events).flat =
      Run.final (FlatServer.step hasher) srv.flat events :=
  (flat_simulation hasher).final rfl
    (Run.always_trivial (step hasher) srv events)

theorem flat_outputs (events : List Event) :
    Run.outputs (step hasher) (sent hasher) srv events =
      Run.outputs (FlatServer.step hasher)
        (FlatServer.sent hasher) srv.flat events := by
  have hOutputs :=
    (flat_simulation hasher).outputs (rfl : srv.flat = _)
      (Run.always_trivial (step hasher) srv events)
  rwa [List.forall₂_eq_eq_eq] at hOutputs

/-
  In every run, over any number of connections, the server
  answers each event with the bytes that the flat server
  sends, and ends with its files, lock and fids.
-/
theorem refines_flatServer
    (events : List Event) :
    (Run.final (step hasher) srv events).flat =
        Run.final (FlatServer.step hasher) srv.flat events ∧
      Run.outputs (step hasher) (sent hasher) srv events =
        Run.outputs (FlatServer.step hasher)
          (FlatServer.sent hasher) srv.flat events :=
  ⟨srv.flat_final hasher events,
    srv.flat_outputs hasher events⟩

end Server

end Planten
