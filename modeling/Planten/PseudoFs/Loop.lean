import Planten.PseudoFs.Stats

/-
  The common form of the two request loops.

  The loop of the process and the service file systems and
  that of the device and the network file systems differ in a
  few places: the qid of the root and what it takes to make
  it, where a walk from an unknown fid starts, whether an
  open looks for the file, when the lock is taken, the record
  a stat answers with, and three texts.

  Key definitions include:
    * `Loop`
    * `Loop.handle`
    * `ProcSrv.loop`, `DevNet.loop`

  Key theorems include:
    * `ProcSrv.handle_eq`
    * `DevNet.handle_eq`
-/

------------------------------------------------------------
-- Loops
------------------------------------------------------------

namespace Planten

/- Where the request loops differ. -/
structure Loop (H : Type) where
  fs : FsServer H
  statClock : Nat
  statLaw : fs.StatLaw statClock
  rootQid : Qid
  makesRoot : Bool
  start : String
  opensFiles : Bool
  locksFirst : Bool
  record : FidState → Attrs → Stat
  walkError : String
  openError : String
  otherError : String
  textsFit :
    ∀ text ∈ [walkError, openError, otherError],
      text.utf8ByteSize ≤ 32

namespace Loop

variable {H : Type}

/- The qid of the root; an inode made for it may panic. -/
def root
    (loop : Loop H)
    (host : Host H) : Except Panic Qid :=
  if loop.makesRoot ∧ host.clock 0 < 0 then
    .error .unwrapFailed
  else
    .ok loop.rootQid

/- The path a walk through a fid starts from. -/
def basePath
    (loop : Loop H)
    (fids : FidTable)
    (fid : UInt32) : String :=
  ((fids.lookup fid).map FidState.path).getD loop.start

/- The lock is taken first, or for a known fid only. -/
def lockFor
    (loop : Loop H)
    (access : Access H)
    (fids : FidTable)
    (fid : UInt32) : Except Panic Unit :=
  if loop.locksFirst ∨ (fids.lookup fid).isSome then
    access.lock
  else
    .ok ()

/- A known fid takes the lock in either loop. -/
theorem lockFor_of_known
    {fids : FidTable}
    {fid : UInt32}
    {state : FidState}
    (hFid : fids.lookup fid = some state)
    (loop : Loop H)
    (access : Access H) :
    loop.lockFor access fids fid = access.lock := by
  rw [lockFor, hFid]
  exact if_pos (Or.inr rfl)

def handleAttach
    (loop : Loop H)
    (access : Access H)
    (fids : FidTable)
    (fid : UInt32) : Except Panic (FidTable × Reply) := do
  let qid ← loop.root (access.hosts 0)
  pure (KeyMap.insert fid (FidState.new "/" qid) fids,
    .rattach qid)

/- The qid a walk ends with: without names, the root's. -/
def walkQid
    (loop : Loop H)
    (host : Host H)
    (qids : List Qid) : Except Panic Qid :=
  match qids.getLast? with
  | some last => .ok last
  | none => loop.root host

def handleWalk
    (loop : Loop H)
    (access : Access H)
    (fids : FidTable)
    (fid newfid : UInt32)
    (names : List String) :
    Except Panic (FidTable × Reply) := do
  access.lock
  match ← walkAlong loop.fs access.hosts 0 names
      (loop.basePath fids fid) [] with
  | some (path, qids) => do
      let qid ← loop.walkQid (access.hosts 0) qids
      pure (KeyMap.insert newfid (FidState.new path qid)
          fids,
        .rwalk qids)
  | none => pure (fids, .rerror loop.walkError)

def handleOpen
    (loop : Loop H)
    (access : Access H)
    (fids : FidTable)
    (fid : UInt32)
    (mode : Option UInt8) :
    Except Panic (FidTable × Reply) :=
  if loop.opensFiles then
    match mode with
    | none => .error .sliceOutOfRange
    | some mode => do
        access.lock
        match fids.lookup fid with
        | none => pure (fids, .rerror loop.openError)
        | some state =>
            match ← loop.fs.stat (access.hosts 0) state.path
              with
            | some _ =>
                pure (KeyMap.insert fid
                    { state with openMode := some mode }
                    fids,
                  .ropen state.qid MAX_MSG_SIZE)
            | none =>
                pure (fids, .rerror "file not found")
  else
    match fids.lookup fid with
    | none => pure (fids, .rerror loop.openError)
    | some state =>
        pure (fids, .ropen state.qid MAX_MSG_SIZE)

def handleRead
    (loop : Loop H)
    (access : Access H)
    (fids : FidTable)
    (fid : UInt32)
    (offset : UInt64)
    (count : UInt32) :
    Except Panic (FidTable × Reply) := do
  loop.lockFor access fids fid
  match fids.lookup fid with
  | none => pure (fids, .rerror "fid not found")
  | some state =>
      match loop.fs.read (access.hosts 0) state.path with
      | some data => do
          let chunk ← fileWindow .dev data offset count
          pure (fids, .rread chunk)
      | none => pure (fids, .rerror "read failed")

def handleStat
    (loop : Loop H)
    (access : Access H)
    (fids : FidTable)
    (fid : UInt32) : Except Panic (FidTable × Reply) := do
  loop.lockFor access fids fid
  match fids.lookup fid with
  | none => pure (fids, .rerror "fid not found")
  | some state =>
      match ← loop.fs.stat (access.hosts 0) state.path with
      | some inode =>
          pure (fids, .rstat (loop.record state inode))
      | none => pure (fids, .rerror "stat failed")

def handle
    (loop : Loop H)
    (access : Access H)
    (fids : FidTable) :
    PseudoRequest → Except Panic (FidTable × Reply)
| .tversion msize version =>
    pure (fids, versionReply msize version)
| .tattach fid _ _ _ => loop.handleAttach access fids fid
| .twalk fid newfid names =>
    loop.handleWalk access fids fid newfid names
| .topen fid mode => loop.handleOpen access fids fid mode
| .tread fid offset count =>
    loop.handleRead access fids fid offset count
| .tstat fid => loop.handleStat access fids fid
| .tclunk fid => pure (KeyMap.erase fid fids, .rclunk)
| .unsupported => pure (fids, .rerror loop.otherError)

/- A request handled, and its reply framed. -/
def respond
    (loop : Loop H)
    (access : Access H)
    (fids : FidTable)
    (tag : UInt16)
    (req : PseudoRequest) :
    Except Panic (FidTable × Bytes) := do
  let (fids, reply) ← loop.handle access fids req
  let frame ← reply.frame tag
  pure (fids, frame)

end Loop

end Planten

------------------------------------------------------------
-- The Two Loops
------------------------------------------------------------

namespace Planten

variable {H : Type}

/- The loop of processes and services. -/
def ProcSrv.loop
    {k : Nat}
    {fs : FsServer H}
    (hLaw : fs.StatLaw k) : Loop H where
  fs := fs
  statClock := k
  statLaw := hLaw
  rootQid := zeroQid
  makesRoot := false
  start := ""
  opensFiles := true
  locksFirst := true
  record := statOf
  walkError := "file not found"
  openError := "fid not found"
  otherError := "unhandled message type"
  textsFit := by decide

/- The loop of devices and network files. -/
def DevNet.loop
    {k : Nat}
    {fs : FsServer H}
    (hLaw : fs.StatLaw k) : Loop H where
  fs := fs
  statClock := k
  statLaw := hLaw
  rootQid := ⟨0x80, 0, 0⟩
  makesRoot := true
  start := "/"
  opensFiles := false
  locksFirst := false
  record := fun _ => buildStat
  walkError := "walk failed"
  openError := "fid not known"
  otherError := "unsupported operation"
  textsFit := by decide

namespace ProcSrv

variable {k : Nat} {fs : FsServer H}

theorem root_loop
    (hLaw : fs.StatLaw k)
    (host : Host H) :
    (loop hLaw).root host = .ok zeroQid :=
  if_neg (fun hMakes => Bool.false_ne_true hMakes.1)

theorem walkQid_loop
    (hLaw : fs.StatLaw k)
    (host : Host H)
    (qids : List Qid) :
    (loop hLaw).walkQid host qids =
      .ok (qids.getLast?.getD zeroQid) := by
  unfold Loop.walkQid
  cases qids.getLast? with
  | none =>
      exact root_loop hLaw host
  | some last =>
      rfl

theorem lockFor_loop
    (hLaw : fs.StatLaw k)
    (access : Access H)
    (fids : FidTable)
    (fid : UInt32) :
    (loop hLaw).lockFor access fids fid = access.lock :=
  if_pos (Or.inl rfl)

/- The loop of processes and services is of the form. -/
theorem handle_eq
    (hLaw : fs.StatLaw k)
    (access : Access H)
    (fids : FidTable)
    (req : PseudoRequest) :
    handle fs access fids req =
      (loop hLaw).handle access fids req := by
  cases req with
  | tattach fid afid uname aname =>
      rw [Loop.handle, Loop.handleAttach, root_loop]
      rfl
  | twalk fid newfid names =>
      rw [Loop.handle, Loop.handleWalk]
      simp only [walkQid_loop]
      rfl
  | tread fid offset count =>
      rw [Loop.handle, Loop.handleRead, lockFor_loop]
      rfl
  | tstat fid =>
      rw [Loop.handle, Loop.handleStat, lockFor_loop]
      rfl
  | _ =>
      rfl

end ProcSrv

namespace DevNet

variable {k : Nat} {fs : FsServer H}

theorem kindQid_of_dir
    {inode : Attrs}
    (hMode : inode.mode = pseudoDirMode) :
    kindQid inode = ⟨0x80, 0, 0⟩ := by
  have hDir : inode.IsDir := by
    rw [Attrs.IsDir, hMode]
    decide
  rw [kindQid, if_pos hDir]

/- The root is a directory, whatever it is called. -/
theorem map_kindQid_rootInode
    (hLaw : fs.StatLaw k)
    (name : String)
    (host : Host H) :
    (rootInode name host).map kindQid =
      (loop hLaw).root host := by
  unfold rootInode Attrs.new Loop.root
  by_cases hBefore : host.clock 0 < 0
  · rw [if_pos hBefore, if_pos ⟨rfl, hBefore⟩]
    rfl
  · rw [if_neg hBefore, if_neg (fun hMakes =>
      hBefore hMakes.2)]
    exact congrArg Except.ok (kindQid_of_dir rfl)

/- An unknown fid takes no lock here. -/
theorem lockFor_of_unknown
    (hLaw : fs.StatLaw k)
    (access : Access H)
    {fids : FidTable}
    {fid : UInt32}
    (hNone : fids.lookup fid = none) :
    (loop hLaw).lockFor access fids fid = .ok () := by
  rw [Loop.lockFor, hNone]
  exact if_neg (fun hTakes =>
    hTakes.elim Bool.false_ne_true Bool.false_ne_true)

/- The loop of devices and network files is of the form. -/
theorem handle_eq
    (hLaw : fs.StatLaw k)
    (name : String)
    (access : Access H)
    (fids : FidTable)
    (req : PseudoRequest) :
    handle name fs access fids req =
      (loop hLaw).handle access fids req := by
  cases req with
  | tattach fid afid uname aname =>
      rw [Loop.handle, Loop.handleAttach,
        ← map_kindQid_rootInode hLaw name]
      change handleAttach name access fids fid = _
      unfold handleAttach
      cases rootInode name (access.hosts 0) <;> rfl
  | twalk fid newfid names =>
      have hQid (qids : List Qid) :
          walkQid name (access.hosts 0) qids =
            (loop hLaw).walkQid (access.hosts 0) qids := by
        unfold walkQid Loop.walkQid
        cases qids.getLast? with
        | none => exact map_kindQid_rootInode hLaw name _
        | some last => rfl
      change handleWalk name fs access fids fid newfid names
        = _
      unfold handleWalk
      simp only [hQid]
      rfl
  | tread fid offset count =>
      change handleRead fs access fids fid offset count = _
      rw [Loop.handle, Loop.handleRead, handleRead]
      cases hFid : fids.lookup fid with
      | none =>
          rw [lockFor_of_unknown hLaw access hFid]
          rfl
      | some state =>
          rw [Loop.lockFor_of_known hFid]
          rfl
  | tstat fid =>
      change handleStat fs access fids fid = _
      rw [Loop.handle, Loop.handleStat, handleStat]
      cases hFid : fids.lookup fid with
      | none =>
          rw [lockFor_of_unknown hLaw access hFid]
          rfl
      | some state =>
          rw [Loop.lockFor_of_known hFid]
          rfl
  | _ =>
      rfl

end DevNet

end Planten
