import Planten.NineP.Messages
import Planten.NineP.Frame
import Planten.RamFs.Operations
import Planten.RamFs.Resolve

/-
  The RAMFS 9P server.

  A handler runs in a session: the shared file system with
  its lock, the fid table of one connection, and the bytes
  sent so far.  `?` on an I/O error and a panic both stop the
  handler in the state reached.  A panic under the lock
  poisons it.  Writing to the socket always succeeds.

  The hash of a path and a time (`DefaultHasher`) and the
  clock readings of a request are parameters.

  Key definitions include:
    * `FidState`
    * `Session`
    * `Handler`
    * `withLock`
    * `handleMessage`
-/

------------------------------------------------------------
-- Sessions
------------------------------------------------------------

namespace Planten

/- The hash of a path and a modification time. -/
abbrev Hasher :=
  String → UInt32 → UInt64

structure FidState where
  path : String
  qid : Qid
  openMode : Option UInt8
deriving DecidableEq, Repr

def FidState.new
    (path : String)
    (qid : Qid) : FidState :=
  ⟨path, qid, none⟩

/- The fid table of one connection. -/
abbrev FidTable :=
  List (UInt32 × FidState)

/- What one handler sees and changes. -/
structure Session where
  ramfs : RamFs
  poisoned : Bool
  fids : FidTable
  sent : Bytes

abbrev Handler (α : Type) :=
  EStateM Fault Session α

/- Run a decoder on a cursor; its error ends the handler. -/
def parse
    {α : Type}
    (d : Decoder IoError α)
    (cursor : Bytes) : Handler (α × Bytes) :=
  fun s =>
    match d.run cursor with
    | .ok r => .ok r s
    | .error err => .error (.io err) s

/- A panic under the lock poisons it. -/
def poisonOnPanic
    {α : Type} :
    EStateM.Result Fault Session α →
      EStateM.Result Fault Session α
| .ok a s => .ok a s
| .error (.io err) s => .error (.io err) s
| .error (.panic cause) s =>
    .error (.panic cause) { s with poisoned := true }

/- Run a handler under the lock; a poisoned lock panics. -/
def withLock
    {α : Type}
    (body : Handler α) : Handler α :=
  fun s =>
    if s.poisoned then
      .error (.panic .poisonedLock) s
    else
      poisonOnPanic (body s)

/-
  Run a mutating operation on the guarded file system.  After
  a panic the lock is poisoned and nobody reads the file
  system again, so its state is left as it was.
-/
def onGuard
    {β : Type}
    (op : RamFs → Except Panic (RamFs × β)) : Handler β :=
  fun s =>
    match op s.ramfs with
    | .ok (ramfs, b) => .ok b { s with ramfs := ramfs }
    | .error cause => .error (.panic cause) s

def setFid
    (fid : UInt32)
    (state : FidState) : Handler Unit :=
  modify (fun s =>
    { s with fids := KeyMap.insert fid state s.fids })

def removeFid (fid : UInt32) : Handler Unit :=
  modify (fun s =>
    { s with fids := KeyMap.erase fid s.fids })

end Planten

------------------------------------------------------------
-- Replies
------------------------------------------------------------

namespace Planten

def sendResponse
    (msgType : UInt8)
    (tag : UInt16)
    (body : Bytes) : Handler Unit :=
  fun s =>
    match buildFrame msgType tag body with
    | .ok frame => .ok () { s with sent := s.sent ++ frame }
    | .error cause => .error (.panic cause) s

def encodeError (message : String) : Bytes :=
  encodeString message

def sendError
    (tag : UInt16)
    (message : String) : Handler Unit :=
  sendResponse RERROR tag (encodeError message)

def buildVersionBody
    (msize : UInt32)
    (version : String) : Bytes :=
  u32le msize ++ encodeString version

def qidFromInode
    (hasher : Hasher)
    (path : String)
    (inode : Inode) : Qid :=
  ⟨if inode.val.IsDir then 0x80 else 0x00,
    inode.val.mtime, hasher path inode.val.mtime⟩

def inodeToStat
    (hasher : Hasher)
    (path : String)
    (inode : Inode) : Stat where
  type_ := 0
  dev := 0
  qid := qidFromInode hasher path inode
  mode := inode.val.mode
  atime := inode.val.atime
  mtime := inode.val.mtime
  length := UInt64.ofNat inode.val.data.length
  name := inode.val.name
  uid := inode.val.uid
  gid := inode.val.gid
  muid := inode.val.uid

def modeAllowsRead (mode : UInt8) : Bool :=
  let typ := mode &&& 0x3
  typ = 0 ∨ typ = 2 ∨ typ = 3

def modeAllowsWrite (mode : UInt8) : Bool :=
  let typ := mode &&& 0x3
  typ = 1 ∨ typ = 2 ∨ mode &&& 0x10 ≠ 0

end Planten

------------------------------------------------------------
-- Request Fields
------------------------------------------------------------

namespace Planten

def readU8 : Decoder IoError UInt8 :=
  word 1 UInt8.ofNat

def readU16 : Decoder IoError UInt16 :=
  word 2 UInt16.ofNat

def readU32 : Decoder IoError UInt32 :=
  word 4 UInt32.ofNat

def readU64 : Decoder IoError UInt64 :=
  word 8 UInt64.ofNat

def readString : Decoder IoError String :=
  text "invalid string"

def versionFields : Decoder IoError (UInt32 × String) := do
  let msize ← readU32
  let version ← readString
  pure (msize, version)

def attachFields :
    Decoder IoError (UInt32 × UInt32 × String × String) := do
  let fid ← readU32
  let afid ← readU32
  let uname ← readString
  let aname ← readString
  pure (fid, afid, uname, aname)

def createFields :
    Decoder IoError (UInt32 × String × UInt32 × UInt8) := do
  let fid ← readU32
  let name ← readString
  let perm ← readU32
  let mode ← readU8
  pure (fid, name, perm, mode)

def cloneFields : Decoder IoError (UInt32 × UInt32) := do
  let fid ← readU32
  let newfid ← readU32
  pure (fid, newfid)

/- The fields of a walk before its names. -/
def walkFields :
    Decoder IoError (UInt32 × UInt32 × UInt16) := do
  let fid ← readU32
  let newfid ← readU32
  let nwname ← readU16
  pure (fid, newfid, nwname)

def openFields : Decoder IoError (UInt32 × UInt8) := do
  let fid ← readU32
  let mode ← readU8
  pure (fid, mode)

def readFields :
    Decoder IoError (UInt32 × UInt64 × UInt32) := do
  let fid ← readU32
  let offset ← readU64
  let count ← readU32
  pure (fid, offset, count)

def writeFields :
    Decoder IoError (UInt32 × UInt64 × Bytes) := do
  let fid ← readU32
  let offset ← readU64
  let count ← readU32
  let buffer ← Decoder.readExact IoError.eof count.toNat
  pure (fid, offset, buffer)

end Planten

------------------------------------------------------------
-- Read Windows, Listings and Walks
------------------------------------------------------------

namespace Planten

/- `data[start..stop].to_vec()`. -/
def slice
    (data : Bytes)
    (start stop : Nat) : Except Panic Bytes :=
  if start ≤ stop ∧ stop ≤ data.length then
    .ok ((data.drop start).take (stop - start))
  else
    .error .sliceOutOfRange

/- The chunk of data a read returns. -/
def readWindow
    (profile : Profile)
    (data : Bytes)
    (offset : UInt64)
    (count : UInt32) : Except Panic Bytes := do
  let start := offset.toNat
  let sum ← usizeAdd profile start count.toNat
  let stop := min sum data.length
  if data.length ≤ start then
    .ok []
  else
    slice data start stop

/- The stat record a listing holds for one entry. -/
def entryBytes
    (hasher : Hasher)
    (fs : RamFs)
    (path entry : String) : Bytes :=
  match resolveStep path entry with
  | none => []
  | some childPath =>
      match fs.stat childPath with
      | none => []
      | some child =>
          encodeStatPayload
            (inodeToStat hasher childPath child)

/- The stat records of the entries of a directory. -/
def dirBytes
    (hasher : Hasher)
    (fs : RamFs)
    (path : String) : Bytes :=
  match fs.listDir path with
  | none => []
  | some entries => entries.flatMap (entryBytes hasher fs path)

/- The data behind a fid, or the text of the error. -/
def readData
    (hasher : Hasher)
    (fs : RamFs)
    (path : String) : Except String Bytes :=
  match fs.stat path with
  | some inode =>
      if inode.val.IsDir then
        .ok (dirBytes hasher fs path)
      else
        match fs.readFile path with
        | some bytes => .ok bytes
        | none => .error "file missing during read"
  | none => .error "file not found"

/-
  Take `n` steps of a walk, reading each name when its turn
  comes.  A step that fails gives the text of the error.
-/
def walkNames
    (hasher : Hasher)
    (fs : RamFs) :
    Nat → Bytes → String → List Qid →
      Except IoError (Except String (String × List Qid))
| 0, _, currentPath, qids => .ok (.ok (currentPath, qids))
| n + 1, cursor, currentPath, qids => do
    let (name, cursor) ← readString.run cursor
    match resolveStep currentPath name with
    | some nextPath =>
        match fs.stat nextPath with
        | some inode =>
            walkNames hasher fs n cursor nextPath
              (qids ++ [qidFromInode hasher nextPath inode])
        | none =>
            .ok (.error ("walk failed: component '" ++ name ++
              "' not found"))
    | none =>
        .ok (.error ("walk failed: invalid component '" ++
          name ++ "'"))

/- The qid a walk ends with, or the text of the error. -/
def walkTarget
    (hasher : Hasher)
    (fs : RamFs)
    (path : String)
    (qids : List Qid) : Except String Qid :=
  match qids.getLast? with
  | some last => .ok last
  | none =>
      match fs.stat path with
      | some inode => .ok (qidFromInode hasher path inode)
      | none => .error "walk failed: target missing"

end Planten

------------------------------------------------------------
-- Handlers
------------------------------------------------------------

namespace Planten

variable (hasher : Hasher) (clock : Clock)

def handleAuth
    (tag : UInt16)
    (_body : Bytes) : Handler Unit :=
  sendResponse RAUTH tag (List.replicate 13 0)

/- Make the node of a create request. -/
def createNode
    (fs : RamFs)
    (path : String)
    (perm : UInt32) : Except Panic (RamFs × Unit) :=
  if perm &&& DMDIR ≠ 0 then
    fs.createDir path clock
  else
    fs.createFile path [] clock

def handleCreate
    (tag : UInt16)
    (body : Bytes) : Handler Unit := do
  let ((fid, name, perm, _mode), _) ← parse createFields body
  match (← get).fids.lookup fid with
  | none => sendError tag "unknown fid"
  | some state =>
      match resolveStep state.path name with
      | none => sendError tag "invalid target path"
      | some newPath =>
          withLock do
            if ((← get).ramfs.stat newPath).isSome then
              sendError tag "file exists"
            else
              onGuard (fun fs =>
                createNode clock fs newPath perm)
              match (← get).ramfs.stat newPath with
              | none => throw (.panic .unwrapFailed)
              | some inode =>
                  sendResponse RCREATE tag
                    (encodeQidBytes
                      (qidFromInode hasher newPath inode) ++
                      u32le 0)

def handleClone
    (tag : UInt16)
    (body : Bytes) : Handler Unit := do
  let ((fid, newfid), _) ← parse cloneFields body
  match (← get).fids.lookup fid with
  | none => sendError tag "unknown fid"
  | some state =>
      setFid newfid state
      sendResponse RCLONE tag []

def handleStat
    (tag : UInt16)
    (body : Bytes) : Handler Unit := do
  let (fid, _) ← parse readU32 body
  match (← get).fids.lookup fid with
  | none => sendError tag "unknown fid"
  | some state =>
      withLock do
        match (← get).ramfs.stat state.path with
        | none => sendError tag "file not found"
        | some inode =>
            sendResponse RSTAT tag
              (encodeStatPayload
                (inodeToStat hasher state.path inode))

def handleVersion
    (tag : UInt16)
    (body : Bytes) : Handler Unit := do
  let ((_msize, _version), _) ← parse versionFields body
  sendResponse RVERSION tag
    (buildVersionBody 131072 "9P2000")

def handleAttach
    (tag : UInt16)
    (body : Bytes) : Handler Unit := do
  let ((fid, _afid, _uname, _aname), _) ←
    parse attachFields body
  let rootQid ←
    withLock do
      match (← get).ramfs.stat "/" with
      | none =>
          sendError tag "root missing"
          pure none
      | some root => pure (some (qidFromInode hasher "/" root))
  match rootQid with
  | none => pure ()
  | some rootQid =>
      setFid fid (FidState.new "/" rootQid)
      sendResponse RATTACH tag (encodeQidBytes rootQid)

/- The state a walk starts from: an unknown fid is the root. -/
def walkBase
    (fid : UInt32) : Handler FidState := do
  match (← get).fids.lookup fid with
  | some state => pure state
  | none =>
      withLock do
        match (← get).ramfs.stat "/" with
        | none => throw (.panic .unwrapFailed)
        | some root =>
            pure (FidState.new "/"
              (qidFromInode hasher "/" root))

/- The walk itself; a failed step is answered at once. -/
def walkSteps
    (tag : UInt16)
    (nwname : UInt16)
    (cursor : Bytes)
    (path : String) :
    Handler (Option (String × List Qid × Qid)) :=
  withLock do
    let fs := (← get).ramfs
    match walkNames hasher fs nwname.toNat cursor path [] with
    | .error err => throw (.io err)
    | .ok (.error message) =>
        sendError tag message
        pure none
    | .ok (.ok (currentPath, qids)) =>
        match walkTarget hasher fs currentPath qids with
        | .error message =>
            sendError tag message
            pure none
        | .ok newQid => pure (some (currentPath, qids, newQid))

def handleWalk
    (tag : UInt16)
    (body : Bytes) : Handler Unit := do
  let ((fid, newfid, nwname), cursor) ← parse walkFields body
  let baseState ← walkBase hasher fid
  let found ←
    walkSteps hasher tag nwname cursor baseState.path
  match found with
  | none => pure ()
  | some (currentPath, qids, newQid) =>
      setFid newfid (FidState.new currentPath newQid)
      sendResponse RWALK tag
        (u16le (UInt16.ofNat qids.length) ++
          qids.flatMap encodeQidBytes)

def handleOpen
    (tag : UInt16)
    (body : Bytes) : Handler Unit := do
  let ((fid, mode), _) ← parse openFields body
  match (← get).fids.lookup fid with
  | none => sendError tag "unknown fid"
  | some state =>
      let inode ← withLock do
        pure ((← get).ramfs.stat state.path)
      match inode with
      | none => sendError tag "file not found"
      | some inode =>
          let qid := qidFromInode hasher state.path inode
          setFid fid
            { state with qid := qid, openMode := some mode }
          sendResponse ROPEN tag
            (encodeQidBytes qid ++ u32le 0)

def handleRead
    (tag : UInt16)
    (body : Bytes) : Handler Unit := do
  let ((fid, offset, count), _) ← parse readFields body
  match (← get).fids.lookup fid with
  | none => sendError tag "unknown fid"
  | some state =>
      match state.openMode with
      | none => sendError tag "fid not open"
      | some mode =>
          if ¬ modeAllowsRead mode then
            sendError tag "fid not open for read"
          else
            let data ←
              withLock do
                match readData hasher (← get).ramfs
                    state.path with
                | .ok data => pure (some data)
                | .error message =>
                    sendError tag message
                    pure none
            match data with
            | none => pure ()
            | some data =>
                match readWindow .dev data offset count with
                | .error cause => throw (.panic cause)
                | .ok chunk =>
                    sendResponse RREAD tag
                      (u32le (UInt32.ofNat chunk.length) ++
                        chunk)

def handleWrite
    (tag : UInt16)
    (body : Bytes) : Handler Unit := do
  let ((fid, offset, buffer), _) ← parse writeFields body
  match (← get).fids.lookup fid with
  | none => sendError tag "unknown fid"
  | some state =>
      match state.openMode with
      | none => sendError tag "fid not open"
      | some mode =>
          if ¬ modeAllowsWrite mode then
            sendError tag "fid not open for write"
          else
            let written ←
              withLock (onGuard (fun fs =>
                fs.write state.path offset buffer clock))
            sendResponse RWRITE tag
              (u32le (written.getD 0))

def handleWstat
    (tag : UInt16)
    (body : Bytes) : Handler Unit := do
  let (fid, cursor) ← parse readU32 body
  match (← get).fids.lookup fid with
  | none => sendError tag "unknown fid"
  | some state =>
      match decodeStat.run cursor with
      | .error err =>
          sendError tag
            ("invalid stat format: " ++ err.message)
      | .ok (statToSet, _) =>
          withLock do
            let done ← onGuard (fun fs =>
              fs.wstatFromStat state.path statToSet)
            if done.isSome then
              sendResponse RWSTAT tag []
            else
              sendError tag "wstat failed"

def handleFlush
    (tag : UInt16)
    (_body : Bytes) : Handler Unit :=
  sendResponse RFLUSH tag []

def handleRemove
    (tag : UInt16)
    (body : Bytes) : Handler Unit := do
  let (fid, _) ← parse readU32 body
  match (← get).fids.lookup fid with
  | none => sendError tag "unknown fid"
  | some state =>
      let success ←
        withLock (onGuard (fun fs => fs.remove state.path))
      removeFid fid
      if success.isSome then
        sendResponse RREMOVE tag []
      else
        sendError tag "remove failed"

def handleClunk
    (tag : UInt16)
    (body : Bytes) : Handler Unit := do
  let (fid, _) ← parse readU32 body
  removeFid fid
  sendResponse RCLUNK tag []

/- The dispatch of `handle_client` on one frame. -/
def handleMessage
    (msgType : UInt8)
    (tag : UInt16)
    (body : Bytes) : Handler Unit :=
  if msgType = TVERSION then
    handleVersion tag body
  else if msgType = TATTACH then
    handleAttach hasher tag body
  else if msgType = TWALK then
    handleWalk hasher tag body
  else if msgType = TOPEN then
    handleOpen hasher tag body
  else if msgType = TREAD then
    handleRead hasher tag body
  else if msgType = TWRITE then
    handleWrite clock tag body
  else if msgType = TWSTAT then
    handleWstat tag body
  else if msgType = TFLUSH then
    handleFlush tag body
  else if msgType = TREMOVE then
    handleRemove tag body
  else if msgType = TCLUNK then
    handleClunk tag body
  else if msgType = TSTAT then
    handleStat hasher tag body
  else if msgType = TCLONE then
    handleClone tag body
  else if msgType = TCREATE then
    handleCreate hasher clock tag body
  else if msgType = TAUTH then
    handleAuth tag body
  else
    sendError tag "unsupported message"

end Planten
