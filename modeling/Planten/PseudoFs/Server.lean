import Planten.PseudoFs.DevNetFs
import Planten.PseudoFs.ProcFs
import Planten.PseudoFs.SrvFs
import Planten.RamFs.Effects

/-
  The 9P servers of the pseudo file systems.

  There are two request loops, one of the process and the
  service file systems and one of the device and the network
  file systems.  A loop reads the fields of a frame, then
  acts on them.  An I/O error and a panic both end the
  connection.  The file system is shared behind a lock, so a
  request is given what it finds of it: whether the lock is
  poisoned, and the host as each call in turn reads it.
  Writing to the socket and to the terminal always succeeds.

  Key definitions include:
    * `PseudoRequest`
    * `Access`
    * `fileWindow`
    * `ProcSrv.handle`
    * `DevNet.handle`
    * `serve`
    * `ProcFs.handleClient`, `SrvFs.handleClient`,
      `DevFs.handleClient`, `NetFs.handleClient`
-/

------------------------------------------------------------
-- Requests
------------------------------------------------------------

namespace Planten

/-
  The fields of a request.  The mode of an open is the fifth
  byte of the body, when there is one.
-/
inductive PseudoRequest where
| tversion (msize : UInt32) (version : String)
| tattach (fid afid : UInt32) (uname aname : String)
| twalk (fid newfid : UInt32) (names : List String)
| topen (fid : UInt32) (mode : Option UInt8)
| tread (fid : UInt32) (offset : UInt64) (count : UInt32)
| tstat (fid : UInt32)
| tclunk (fid : UInt32)
| unsupported
deriving DecidableEq, Repr

namespace PseudoRequest

def versionFields : Decoder IoError (UInt32 × String) := do
  let msize ← decodeU32
  let version ← decodeString
  pure (msize, version)

def attachFields :
    Decoder IoError (UInt32 × UInt32 × String × String) := do
  let fid ← decodeU32
  let afid ← decodeU32
  let uname ← decodeString
  let aname ← decodeString
  pure (fid, afid, uname, aname)

/- All names of a walk are read before it starts. -/
def walkFields :
    Decoder IoError (UInt32 × UInt32 × List String) := do
  let fid ← decodeU32
  let newfid ← decodeU32
  let nwname ← decodeU16
  let names ← Decoder.many decodeString nwname.toNat
  pure (fid, newfid, names)

def readFields :
    Decoder IoError (UInt32 × UInt64 × UInt32) := do
  let fid ← decodeU32
  let offset ← decodeU64
  let count ← decodeU32
  pure (fid, offset, count)

/- The fields of a frame, by its type. -/
def decode
    (msgType : UInt8)
    (body : Bytes) : Except IoError PseudoRequest :=
  if msgType = TVERSION then
    (versionFields.run body).map
      (fun r => .tversion r.1.1 r.1.2)
  else if msgType = TATTACH then
    (attachFields.run body).map
      (fun r => .tattach r.1.1 r.1.2.1 r.1.2.2.1 r.1.2.2.2)
  else if msgType = TWALK then
    (walkFields.run body).map
      (fun r => .twalk r.1.1 r.1.2.1 r.1.2.2)
  else if msgType = TOPEN then
    (decodeU32.run body).map
      (fun r => .topen r.1 body[4]?)
  else if msgType = TREAD then
    (readFields.run body).map
      (fun r => .tread r.1.1 r.1.2.1 r.1.2.2)
  else if msgType = TSTAT then
    (decodeU32.run body).map (fun r => .tstat r.1)
  else if msgType = TCLUNK then
    (decodeU32.run body).map (fun r => .tclunk r.1)
  else
    .ok .unsupported

/- The names of a walk. -/
def names : PseudoRequest → List String
| twalk _ _ names => names
| _ => []

end PseudoRequest

end Planten

------------------------------------------------------------
-- Parts of the Request Loops
------------------------------------------------------------

namespace Planten

/- What a request finds of the shared file system. -/
structure Access (H : Type) where
  poisoned : Bool
  hosts : Nat → Host H

/- `fs.lock().unwrap()`. -/
def Access.lock
    {H : Type}
    (access : Access H) : Except Panic Unit :=
  if access.poisoned then
    .error .poisonedLock
  else
    .ok ()

def MAX_MSG_SIZE : UInt32 :=
  8192

def VERSION_STRING : String :=
  "9P2000"

/- The size is negotiated down; one version is known. -/
def versionReply
    (msize : UInt32)
    (version : String) : Reply :=
  .rversion (min msize MAX_MSG_SIZE)
    (if version = VERSION_STRING then
      VERSION_STRING
    else
      "unknown")

/- The path of one walk step. -/
def resolvePath (base name : String) : String :=
  if base = "/" then
    "/" ++ name
  else
    base ++ "/" ++ name

/- A qid tells a directory from a file, and nothing else. -/
def kindQid (inode : Attrs) : Qid :=
  ⟨if inode.IsDir then 0x80 else 0x00, 0, 0⟩

/-
  The steps of a walk.  Step `i` is the `i`th call into the
  file system; a name that is not found ends the walk.
-/
def walkAlong
    {H : Type}
    (fs : FsServer H)
    (hosts : Nat → Host H) :
    Nat → List String → String → List Qid →
      Except Panic (Option (String × List Qid))
| _, [], currentPath, qids => .ok (some (currentPath, qids))
| i, name :: names, currentPath, qids => do
    let nextPath := resolvePath currentPath name
    match ← fs.stat (hosts i) nextPath with
    | some inode =>
        walkAlong fs hosts (i + 1) names nextPath
          (qids ++ [kindQid inode])
    | none => .ok none

/-
  The chunk of data a read returns.  The end of the window is
  a `u64` sum, which panics in the dev profile.
-/
def fileWindow
    (profile : Profile)
    (data : Bytes)
    (offset : UInt64)
    (count : UInt32) : Except Panic Bytes := do
  let start := offset.toNat
  let sum ← usizeAdd profile offset.toNat count.toNat
  let stop := min sum data.length
  if start < stop then
    slice data start stop
  else
    .ok []

end Planten

------------------------------------------------------------
-- Processes and Services
------------------------------------------------------------

namespace Planten

namespace ProcSrv

variable {H : Type}

/- The qid of the root, and of a walk without names. -/
def zeroQid : Qid :=
  ⟨0, 0, 0⟩

def statOf
    (state : FidState)
    (inode : Attrs) : Stat where
  type_ := 0
  dev := 0
  qid := state.qid
  mode := inode.mode
  atime := inode.atime
  mtime := inode.mtime
  length := UInt64.ofNat inode.data.length
  name := inode.name
  uid := inode.uid
  gid := inode.gid
  muid := "none"

/- A walk from an unknown fid starts at the empty path. -/
def handleWalk
    (fs : FsServer H)
    (access : Access H)
    (fids : FidTable)
    (fid newfid : UInt32)
    (names : List String) :
    Except Panic (FidTable × Reply) := do
  access.lock
  let currentPath :=
    ((fids.lookup fid).map FidState.path).getD ""
  match ← walkAlong fs access.hosts 0 names currentPath []
    with
  | some (currentPath, qids) =>
      pure (KeyMap.insert newfid
          (FidState.new currentPath
            (qids.getLast?.getD zeroQid)) fids,
        .rwalk qids)
  | none => pure (fids, .rerror "file not found")

/- The mode is indexed before the lock is taken. -/
def handleOpen
    (fs : FsServer H)
    (access : Access H)
    (fids : FidTable)
    (fid : UInt32)
    (mode : Option UInt8) :
    Except Panic (FidTable × Reply) :=
  match mode with
  | none => .error .sliceOutOfRange
  | some mode => do
      access.lock
      match fids.lookup fid with
      | none => pure (fids, .rerror "fid not found")
      | some state =>
          match ← fs.stat (access.hosts 0) state.path with
          | some _ =>
              pure (KeyMap.insert fid
                  { state with openMode := some mode } fids,
                .ropen state.qid MAX_MSG_SIZE)
          | none => pure (fids, .rerror "file not found")

def handleRead
    (fs : FsServer H)
    (access : Access H)
    (fids : FidTable)
    (fid : UInt32)
    (offset : UInt64)
    (count : UInt32) :
    Except Panic (FidTable × Reply) := do
  access.lock
  match fids.lookup fid with
  | none => pure (fids, .rerror "fid not found")
  | some state =>
      match fs.read (access.hosts 0) state.path with
      | some data => do
          let slice ← fileWindow .dev data offset count
          pure (fids, .rread slice)
      | none => pure (fids, .rerror "read failed")

def handleStat
    (fs : FsServer H)
    (access : Access H)
    (fids : FidTable)
    (fid : UInt32) : Except Panic (FidTable × Reply) := do
  access.lock
  match fids.lookup fid with
  | none => pure (fids, .rerror "fid not found")
  | some state =>
      match ← fs.stat (access.hosts 0) state.path with
      | some inode =>
          pure (fids, .rstat (statOf state inode))
      | none => pure (fids, .rerror "stat failed")

/- The arms of the loop. -/
def handle
    (fs : FsServer H)
    (access : Access H)
    (fids : FidTable) :
    PseudoRequest → Except Panic (FidTable × Reply)
| .tversion msize version =>
    pure (fids, versionReply msize version)
| .tattach fid _ _ _ =>
    pure (KeyMap.insert fid (FidState.new "/" zeroQid) fids,
      .rattach zeroQid)
| .twalk fid newfid names =>
    handleWalk fs access fids fid newfid names
| .topen fid mode => handleOpen fs access fids fid mode
| .tread fid offset count =>
    handleRead fs access fids fid offset count
| .tstat fid => handleStat fs access fids fid
| .tclunk fid => pure (KeyMap.erase fid fids, .rclunk)
| .unsupported =>
    pure (fids, .rerror "unhandled message type")

end ProcSrv

end Planten

------------------------------------------------------------
-- Devices and Network Files
------------------------------------------------------------

namespace Planten

namespace DevNet

variable {H : Type}

/- The inode of the root; making one reads the clock. -/
def rootInode
    (name : String)
    (host : Host H) : Except Panic Attrs :=
  Attrs.new name pseudoDirMode "root" "root" (host.clock 0)

def buildStat (inode : Attrs) : Stat where
  type_ := 0
  dev := 0
  qid := kindQid inode
  mode := inode.mode
  atime := inode.atime
  mtime := inode.mtime
  length := UInt64.ofNat inode.data.length
  name := inode.name
  uid := inode.uid
  gid := inode.gid
  muid := inode.uid

def handleAttach
    (name : String)
    (access : Access H)
    (fids : FidTable)
    (fid : UInt32) : Except Panic (FidTable × Reply) := do
  let root ← rootInode name (access.hosts 0)
  pure (KeyMap.insert fid (FidState.new "/" (kindQid root))
      fids,
    .rattach (kindQid root))

/- The qid a walk ends with: without names, the root's. -/
def walkQid
    (name : String)
    (host : Host H)
    (qids : List Qid) : Except Panic Qid :=
  match qids.getLast? with
  | some last => .ok last
  | none => (rootInode name host).map kindQid

/- A walk from an unknown fid starts at the root. -/
def handleWalk
    (name : String)
    (fs : FsServer H)
    (access : Access H)
    (fids : FidTable)
    (fid newfid : UInt32)
    (names : List String) :
    Except Panic (FidTable × Reply) := do
  access.lock
  let currentPath :=
    ((fids.lookup fid).map FidState.path).getD "/"
  match ← walkAlong fs access.hosts 0 names currentPath []
    with
  | some (currentPath, qids) => do
      let qid ← walkQid name (access.hosts 0) qids
      pure (KeyMap.insert newfid
          (FidState.new currentPath qid) fids,
        .rwalk qids)
  | none => pure (fids, .rerror "walk failed")

/- The lock is taken for a known fid only. -/
def handleRead
    (fs : FsServer H)
    (access : Access H)
    (fids : FidTable)
    (fid : UInt32)
    (offset : UInt64)
    (count : UInt32) :
    Except Panic (FidTable × Reply) :=
  match fids.lookup fid with
  | none => pure (fids, .rerror "fid not found")
  | some state => do
      access.lock
      match fs.read (access.hosts 0) state.path with
      | some data => do
          let slice ← fileWindow .dev data offset count
          pure (fids, .rread slice)
      | none => pure (fids, .rerror "read failed")

/- The mode is not read, and nothing is opened. -/
def handleOpen
    (fids : FidTable)
    (fid : UInt32) : Except Panic (FidTable × Reply) :=
  match fids.lookup fid with
  | none => pure (fids, .rerror "fid not known")
  | some state =>
      pure (fids, .ropen state.qid MAX_MSG_SIZE)

def handleStat
    (fs : FsServer H)
    (access : Access H)
    (fids : FidTable)
    (fid : UInt32) : Except Panic (FidTable × Reply) :=
  match fids.lookup fid with
  | none => pure (fids, .rerror "fid not found")
  | some state => do
      access.lock
      match ← fs.stat (access.hosts 0) state.path with
      | some inode => pure (fids, .rstat (buildStat inode))
      | none => pure (fids, .rerror "stat failed")

/- The arms of the loop. -/
def handle
    (name : String)
    (fs : FsServer H)
    (access : Access H)
    (fids : FidTable) :
    PseudoRequest → Except Panic (FidTable × Reply)
| .tversion msize version =>
    pure (fids, versionReply msize version)
| .tattach fid _ _ _ => handleAttach name access fids fid
| .twalk fid newfid names =>
    handleWalk name fs access fids fid newfid names
| .topen fid _ => handleOpen fids fid
| .tread fid offset count =>
    handleRead fs access fids fid offset count
| .tstat fid => handleStat fs access fids fid
| .tclunk fid => pure (KeyMap.erase fid fids, .rclunk)
| .unsupported =>
    pure (fids, .rerror "unsupported operation")

end DevNet

end Planten

------------------------------------------------------------
-- The Servers
------------------------------------------------------------

namespace Planten

/-
  One turn of a request loop: the fields are read, the arm
  is run, and its reply is framed and sent.
-/
def serve
    (handle :
      PseudoRequest → Except Panic (FidTable × Reply))
    (msgType : UInt8)
    (tag : UInt16)
    (body : Bytes) : Except Fault (FidTable × Bytes) :=
  match PseudoRequest.decode msgType body with
  | .error err => .error (.io err)
  | .ok req =>
      match handle req with
      | .error cause => .error (.panic cause)
      | .ok (fids, reply) =>
          match reply.frame tag with
          | .error cause => .error (.panic cause)
          | .ok frame => .ok (fids, frame)

def ProcFs.handleClient
    {Pid : Type}
    [DecidableEq Pid]
    (pids : PidText Pid)
    (access : Access (ProcTable Pid))
    (fids : FidTable) :
    UInt8 → UInt16 → Bytes →
      Except Fault (FidTable × Bytes) :=
  serve (ProcSrv.handle (ProcFs.fs pids) access fids)

def SrvFs.handleClient
    (access : Access SrvRoot)
    (fids : FidTable) :
    UInt8 → UInt16 → Bytes →
      Except Fault (FidTable × Bytes) :=
  serve (ProcSrv.handle SrvFs.fs access fids)

def DevFs.handleClient
    (access : Access (Nat → UInt8))
    (fids : FidTable) :
    UInt8 → UInt16 → Bytes →
      Except Fault (FidTable × Bytes) :=
  serve (DevNet.handle "dev" DevFs.fs access fids)

def NetFs.handleClient
    (access : Access NetHost)
    (fids : FidTable) :
    UInt8 → UInt16 → Bytes →
      Except Fault (FidTable × Bytes) :=
  serve (DevNet.handle "net" NetFs.fs access fids)

end Planten
