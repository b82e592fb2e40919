import Planten.Library.Threads
import Planten.RamFs.Runs

/-
  The server thread by thread.

  `run_server` gives every connection a thread of its own.
  A handler works on what its thread has to itself, the fid
  table and the bytes to send, and takes the lock for the
  section that works on the files.  Here the handlers are
  threads, which the scheduler may stop before, between and
  after their sections.  Each takes the lock once, but for a
  walk from an unknown fid, which first looks at the root.
  So the interleaved server is the one that handles every
  frame at once.

  Key definitions include:
    * `Threaded`, `Threaded.withLock`
    * `Threaded.handleMessage`
    * `Threaded.Runs`
    * `Server.program`

  Key theorems include:
    * `Threaded.runs_handleMessage`
    * `Threaded.single_handleMessage`
    * `Server.desk_step`
    * `Server.linearizable`
-/

------------------------------------------------------------
-- Threaded Handlers
------------------------------------------------------------

namespace Planten

/- What the connections share. -/
structure Shared where
  ramfs : RamFs
  poisoned : Bool

/- What the thread of a connection has to itself. -/
structure Own where
  fids : FidTable
  sent : Bytes

/- The session of a thread that holds the lock. -/
def Shared.session
    (shared : Shared)
    (own : Own) : Session :=
  ⟨shared.ramfs, shared.poisoned, own.fids, own.sent⟩

/- What a session leaves to the others and to its thread. -/
def Session.parts
    {α : Type} :
    EStateM.Result Fault Session α →
      Shared × (Except Fault α × Own)
| .ok a s => (⟨s.ramfs, s.poisoned⟩, .ok a, ⟨s.fids, s.sent⟩)
| .error err s =>
    (⟨s.ramfs, s.poisoned⟩, .error err, ⟨s.fids, s.sent⟩)

/- A handler in a thread. -/
def Threaded (α : Type) :=
  Own → Thread Shared (Except Fault α × Own)

namespace Threaded

variable {α β : Type}

/- Go on unless there was an error. -/
def andThen
    (f : α → Threaded β) :
    Except Fault α × Own → Thread Shared (Except Fault β × Own)
| (.ok a, own) => f a own
| (.error err, own) => .done (.error err, own)

instance : Monad Threaded where
  pure a := fun own => .done (.ok a, own)
  bind x f := fun own => (x own).bind (andThen f)

def throw (err : Fault) : Threaded α :=
  fun own => .done (.error err, own)

def getFids : Threaded FidTable :=
  fun own => .done (.ok own.fids, own)

def setFid
    (fid : UInt32)
    (state : FidState) : Threaded Unit :=
  fun own =>
    .done (.ok (),
      { own with fids := KeyMap.insert fid state own.fids })

def removeFid (fid : UInt32) : Threaded Unit :=
  fun own =>
    .done (.ok (),
      { own with fids := KeyMap.erase fid own.fids })

def parse
    (d : Decoder IoError α)
    (cursor : Bytes) : Threaded (α × Bytes) :=
  fun own =>
    match d.run cursor with
    | .ok r => .done (.ok r, own)
    | .error err => .done (.error (.io err), own)

def sendResponse
    (msgType : UInt8)
    (tag : UInt16)
    (body : Bytes) : Threaded Unit :=
  fun own =>
    match buildFrame msgType tag body with
    | .ok frame =>
        .done (.ok (), { own with sent := own.sent ++ frame })
    | .error cause => .done (.error (.panic cause), own)

def sendError
    (tag : UInt16)
    (message : String) : Threaded Unit :=
  sendResponse RERROR tag (encodeError message)

/- A section: the lock is taken, and let go at its end. -/
def withLock (body : Handler α) : Threaded α :=
  fun own =>
    .locked
      (fun shared =>
        (Session.parts
          (Planten.withLock body (shared.session own))).1)
      (fun shared =>
        .done (Session.parts
          (Planten.withLock body (shared.session own))).2)

variable (hasher : Hasher) (clock : Clock)

def handleAuth
    (tag : UInt16)
    (_body : Bytes) : Threaded Unit :=
  sendResponse RAUTH tag (List.replicate 13 0)

def handleCreate
    (tag : UInt16)
    (body : Bytes) : Threaded Unit := do
  let ((fid, name, perm, _mode), _) ← parse createFields body
  match (← getFids).lookup fid with
  | none => sendError tag "unknown fid"
  | some state =>
      match resolveStep state.path name with
      | none => sendError tag "invalid target path"
      | some newPath =>
          -- the reply is sent with the lock still held
          withLock do
            if ((← get).ramfs.stat newPath).isSome then
              Planten.sendError tag "file exists"
            else
              onGuard (fun fs =>
                createNode clock fs newPath perm)
              match (← get).ramfs.stat newPath with
              | none => MonadExcept.throw (.panic .unwrapFailed)
              | some inode =>
                  Planten.sendResponse RCREATE tag
                    (encodeQidBytes
                      (qidFromInode hasher newPath inode) ++
                      u32le 0)

def handleClone
    (tag : UInt16)
    (body : Bytes) : Threaded Unit := do
  let ((fid, newfid), _) ← parse cloneFields body
  match (← getFids).lookup fid with
  | none => sendError tag "unknown fid"
  | some state =>
      setFid newfid state
      sendResponse RCLONE tag []

def handleStat
    (tag : UInt16)
    (body : Bytes) : Threaded Unit := do
  let (fid, _) ← parse readU32 body
  match (← getFids).lookup fid with
  | none => sendError tag "unknown fid"
  | some state =>
      withLock do
        match (← get).ramfs.stat state.path with
        | none => Planten.sendError tag "file not found"
        | some inode =>
            Planten.sendResponse RSTAT tag
              (encodeStatPayload
                (inodeToStat hasher state.path inode))

def handleVersion
    (tag : UInt16)
    (body : Bytes) : Threaded Unit := do
  let ((_msize, _version), _) ← parse versionFields body
  sendResponse RVERSION tag
    (buildVersionBody 131072 "9P2000")

def handleAttach
    (tag : UInt16)
    (body : Bytes) : Threaded Unit := do
  let ((fid, _afid, _uname, _aname), _) ←
    parse attachFields body
  let rootQid ←
    withLock do
      match (← get).ramfs.stat "/" with
      | none =>
          Planten.sendError tag "root missing"
          pure none
      | some root => pure (some (qidFromInode hasher "/" root))
  match rootQid with
  | none => pure ()
  | some rootQid =>
      setFid fid (FidState.new "/" rootQid)
      sendResponse RATTACH tag (encodeQidBytes rootQid)

/- The root, as a walk from an unknown fid finds it. -/
def walkRoot : Handler FidState := do
  match (← get).ramfs.stat "/" with
  | none => MonadExcept.throw (.panic .unwrapFailed)
  | some root =>
      pure (FidState.new "/" (qidFromInode hasher "/" root))

/- An unknown fid takes the lock for the root alone. -/
def walkBase
    (fid : UInt32) : Threaded FidState := do
  match (← getFids).lookup fid with
  | some state => pure state
  | none => withLock (walkRoot hasher)

/- The walk itself; a failed step is answered at once. -/
def walkSteps
    (tag : UInt16)
    (nwname : UInt16)
    (cursor : Bytes)
    (path : String) :
    Handler (Option (String × List Qid × Qid)) := do
  let fs := (← get).ramfs
  match walkNames hasher fs nwname.toNat cursor path [] with
  | .error err => MonadExcept.throw (.io err)
  | .ok (.error message) =>
      Planten.sendError tag message
      pure none
  | .ok (.ok (currentPath, qids)) =>
      match walkTarget hasher fs currentPath qids with
      | .error message =>
          Planten.sendError tag message
          pure none
      | .ok newQid => pure (some (currentPath, qids, newQid))

/- What is left of a walk after its steps. -/
def walkReply
    (tag : UInt16)
    (newfid : UInt32)
    (found : Option (String × List Qid × Qid)) :
    Threaded Unit := do
  match found with
  | none => pure ()
  | some (currentPath, qids, newQid) =>
      setFid newfid (FidState.new currentPath newQid)
      sendResponse RWALK tag
        (u16le (UInt16.ofNat qids.length) ++
          qids.flatMap encodeQidBytes)

def handleWalk
    (tag : UInt16)
    (body : Bytes) : Threaded Unit := do
  let ((fid, newfid, nwname), cursor) ← parse walkFields body
  let baseState ← walkBase hasher fid
  let found ←
    withLock
      (walkSteps hasher tag nwname cursor baseState.path)
  walkReply tag newfid found

def handleOpen
    (tag : UInt16)
    (body : Bytes) : Threaded Unit := do
  let ((fid, mode), _) ← parse openFields body
  match (← getFids).lookup fid with
  | none => sendError tag "unknown fid"
  | some state =>
      let inode ← withLock do
        pure ((← get).ramfs.stat state.path)
      match inode with
      | none => sendError tag "file not found"
      | some inode =>
          let qid := qidFromInode hasher state.path inode
          setFid fid
            { state with qid := qid, openMode := some mode }
          sendResponse ROPEN tag
            (encodeQidBytes qid ++ u32le 0)

def handleRead
    (tag : UInt16)
    (body : Bytes) : Threaded Unit := do
  let ((fid, offset, count), _) ← parse readFields body
  match (← getFids).lookup fid with
  | none => sendError tag "unknown fid"
  | some state =>
      match state.openMode with
      | none => sendError tag "fid not open"
      | some mode =>
          if ¬ modeAllowsRead mode then
            sendError tag "fid not open for read"
          else
            let data ←
              withLock do
                match readData hasher (← get).ramfs
                    state.path with
                | .ok data => pure (some data)
                | .error message =>
                    Planten.sendError tag message
                    pure none
            match data with
            | none => pure ()
            | some data =>
                match readWindow .dev data offset count with
                | .error cause => throw (.panic cause)
                | .ok chunk =>
                    sendResponse RREAD tag
                      (u32le (UInt32.ofNat chunk.length) ++
                        chunk)

def handleWrite
    (tag : UInt16)
    (body : Bytes) : Threaded Unit := do
  let ((fid, offset, buffer), _) ← parse writeFields body
  match (← getFids).lookup fid with
  | none => sendError tag "unknown fid"
  | some state =>
      match state.openMode with
      | none => sendError tag "fid not open"
      | some mode =>
          if ¬ modeAllowsWrite mode then
            sendError tag "fid not open for write"
          else
            let written ←
              withLock (onGuard (fun fs =>
                fs.write state.path offset buffer clock))
            sendResponse RWRITE tag
              (u32le (written.getD 0))

def handleWstat
    (tag : UInt16)
    (body : Bytes) : Threaded Unit := do
  let (fid, cursor) ← parse readU32 body
  match (← getFids).lookup fid with
  | none => sendError tag "unknown fid"
  | some state =>
      match decodeStat.run cursor with
      | .error err =>
          sendError tag
            ("invalid stat format: " ++ err.message)
      | .ok (statToSet, _) =>
          withLock do
            let done ← onGuard (fun fs =>
              fs.wstatFromStat state.path statToSet)
            if done.isSome then
              Planten.sendResponse RWSTAT tag []
            else
              Planten.sendError tag "wstat failed"

def handleFlush
    (tag : UInt16)
    (_body : Bytes) : Threaded Unit :=
  sendResponse RFLUSH tag []

def handleRemove
    (tag : UInt16)
    (body : Bytes) : Threaded Unit := do
  let (fid, _) ← parse readU32 body
  match (← getFids).lookup fid with
  | none => sendError tag "unknown fid"
  | some state =>
      let success ←
        withLock (onGuard (fun fs => fs.remove state.path))
      removeFid fid
      if success.isSome then
        sendResponse RREMOVE tag []
      else
        sendError tag "remove failed"

def handleClunk
    (tag : UInt16)
    (body : Bytes) : Threaded Unit := do
  let (fid, _) ← parse readU32 body
  removeFid fid
  sendResponse RCLUNK tag []

/- The dispatch of `handle_client`, in its thread. -/
def handleMessage
    (msgType : UInt8)
    (tag : UInt16)
    (body : Bytes) : Threaded Unit :=
  if msgType = TVERSION then
    handleVersion tag body
  else if msgType = TATTACH then
    handleAttach hasher tag body
  else if msgType = TWALK then
    handleWalk hasher tag body
  else if msgType = TOPEN then
    handleOpen hasher tag body
  else if msgType = TREAD then
    handleRead hasher tag body
  else if msgType = TWRITE then
    handleWrite clock tag body
  else if msgType = TWSTAT then
    handleWstat tag body
  else if msgType = TFLUSH then
    handleFlush tag body
  else if msgType = TREMOVE then
    handleRemove tag body
  else if msgType = TCLUNK then
    handleClunk tag body
  else if msgType = TSTAT then
    handleStat hasher tag body
  else if msgType = TCLONE then
    handleClone tag body
  else if msgType = TCREATE then
    handleCreate hasher clock tag body
  else if msgType = TAUTH then
    handleAuth tag body
  else
    sendError tag "unsupported message"

end Threaded

end Planten

------------------------------------------------------------
-- Threads Run as Handlers
------------------------------------------------------------

namespace Planten

namespace Threaded

variable {α β : Type}

/- Without interruption a thread does what a handler does. -/
def Runs
    (x : Threaded α)
    (h : Handler α) : Prop :=
  ∀ shared own,
    (x own).run shared =
      Session.parts (h (shared.session own))

theorem Runs.pure (a : α) :
    Runs (Pure.pure a) (Pure.pure a) :=
  fun _ _ => rfl

theorem Runs.throw (err : Fault) :
    Runs (throw err : Threaded α) (MonadExcept.throw err) :=
  fun _ _ => rfl

theorem Runs.bind
    {x : Threaded α}
    {h : Handler α}
    {f : α → Threaded β}
    {g : α → Handler β}
    (hFirst : Runs x h)
    (hRest : ∀ a, Runs (f a) (g a)) :
    Runs (x >>= f) (h >>= g) := by
  intro shared own
  change ((x own).bind (andThen f)).run shared =
    Session.parts (EStateM.bind h g (shared.session own))
  rw [Thread.run_bind, hFirst shared own, EStateM.bind]
  cases h (shared.session own) with
  | error err s =>
      rfl
  | ok a s =>
      exact hRest a ⟨s.ramfs, s.poisoned⟩ ⟨s.fids, s.sent⟩

/- A handler reads the fids of its thread. -/
theorem Runs.getFids
    {f : FidTable → Threaded β}
    {g : Session → Handler β}
    (hRest : ∀ s : Session, Runs (f s.fids) (g s)) :
    Runs (Threaded.getFids >>= f) (get >>= g) :=
  fun shared own =>
    hRest (shared.session own) shared own

theorem Runs.parse
    (d : Decoder IoError α)
    (cursor : Bytes) :
    Runs (parse d cursor) (Planten.parse d cursor) := by
  intro shared own
  unfold Threaded.parse Planten.parse
  cases d.run cursor with
  | error err | ok r =>
      rfl

theorem Runs.setFid
    (fid : UInt32)
    (state : FidState) :
    Runs (setFid fid state) (Planten.setFid fid state) :=
  fun _ _ => rfl

theorem Runs.removeFid (fid : UInt32) :
    Runs (removeFid fid) (Planten.removeFid fid) :=
  fun _ _ => rfl

theorem Runs.sendResponse
    (msgType : UInt8)
    (tag : UInt16)
    (body : Bytes) :
    Runs (sendResponse msgType tag body)
      (Planten.sendResponse msgType tag body) := by
  intro shared own
  unfold Threaded.sendResponse Planten.sendResponse
  cases buildFrame msgType tag body with
  | error cause | ok frame =>
      rfl

theorem Runs.sendError
    (tag : UInt16)
    (message : String) :
    Runs (sendError tag message)
      (Planten.sendError tag message) :=
  .sendResponse _ _ _

theorem Runs.withLock (body : Handler α) :
    Runs (withLock body) (Planten.withLock body) :=
  fun _ _ => rfl

theorem Runs.ite
    {c : Prop}
    [Decidable c]
    {x y : Threaded α}
    {h g : Handler α}
    (hThen : Runs x h)
    (hElse : Runs y g) :
    Runs (if c then x else y) (if c then h else g) := by
  split
  · exact hThen
  · exact hElse

/- Most handlers go on with the state of a known fid. -/
theorem Runs.ofFid
    {fid : UInt32}
    {tag : UInt16}
    {f : FidState → Threaded Unit}
    {g : FidState → Handler Unit}
    (hRest : ∀ state, Runs (f state) (g state)) :
    Runs
      (do
        match (← Threaded.getFids).lookup fid with
        | none => Threaded.sendError tag "unknown fid"
        | some state => f state)
      (do
        match (← get).fids.lookup fid with
        | none => Planten.sendError tag "unknown fid"
        | some state => g state) := by
  apply Runs.getFids
  intro s
  cases s.fids.lookup fid with
  | none =>
      exact .sendError _ _
  | some state =>
      exact hRest state

variable (hasher : Hasher) (clock : Clock)

theorem runs_handleCreate
    (tag : UInt16)
    (body : Bytes) :
    Runs (handleCreate hasher clock tag body)
      (Planten.handleCreate hasher clock tag body) := by
  apply Runs.bind (.parse _ _)
  rintro ⟨⟨fid, name, perm, mode⟩, rest⟩
  refine .ofFid (fun state => ?_)
  cases resolveStep state.path name with
  | none =>
      exact .sendError _ _
  | some newPath =>
      exact .withLock _

theorem runs_handleClone
    (tag : UInt16)
    (body : Bytes) :
    Runs (handleClone tag body)
      (Planten.handleClone tag body) := by
  apply Runs.bind (.parse _ _)
  rintro ⟨⟨fid, newfid⟩, rest⟩
  exact .ofFid (fun _ =>
    .bind (.setFid _ _) (fun _ => .sendResponse _ _ _))

theorem runs_handleStat
    (tag : UInt16)
    (body : Bytes) :
    Runs (handleStat hasher tag body)
      (Planten.handleStat hasher tag body) := by
  apply Runs.bind (.parse _ _)
  rintro ⟨fid, rest⟩
  exact .ofFid (fun _ => .withLock _)

theorem runs_handleAttach
    (tag : UInt16)
    (body : Bytes) :
    Runs (handleAttach hasher tag body)
      (Planten.handleAttach hasher tag body) := by
  apply Runs.bind (.parse _ _)
  rintro ⟨⟨fid, afid, uname, aname⟩, rest⟩
  apply Runs.bind (.withLock _)
  intro rootQid
  cases rootQid with
  | none =>
      exact .pure ()
  | some rootQid =>
      exact .bind (.setFid _ _) (fun _ => .sendResponse _ _ _)

theorem runs_handleWalk
    (tag : UInt16)
    (body : Bytes) :
    Runs (handleWalk hasher tag body)
      (Planten.handleWalk hasher tag body) := by
  apply Runs.bind (.parse _ _)
  rintro ⟨⟨fid, newfid, nwname⟩, cursor⟩
  refine .bind ?_ (fun base => .bind (.withLock _) ?_)
  · apply Runs.getFids
    intro s
    cases s.fids.lookup fid with
    | none =>
        exact .withLock _
    | some state =>
        exact .pure state
  · intro found
    cases found with
    | none =>
        exact .pure ()
    | some target =>
        exact .bind (.setFid _ _)
          (fun _ => .sendResponse _ _ _)

theorem runs_handleOpen
    (tag : UInt16)
    (body : Bytes) :
    Runs (handleOpen hasher tag body)
      (Planten.handleOpen hasher tag body) := by
  apply Runs.bind (.parse _ _)
  rintro ⟨⟨fid, mode⟩, rest⟩
  refine .ofFid (fun state => .bind (.withLock _) ?_)
  intro inode
  cases inode with
  | none =>
      exact .sendError _ _
  | some inode =>
      exact .bind (.setFid _ _) (fun _ => .sendResponse _ _ _)

theorem runs_handleRead
    (tag : UInt16)
    (body : Bytes) :
    Runs (handleRead hasher tag body)
      (Planten.handleRead hasher tag body) := by
  apply Runs.bind (.parse _ _)
  rintro ⟨⟨fid, offset, count⟩, rest⟩
  refine .ofFid (fun state => ?_)
  cases state.openMode with
  | none =>
      exact .sendError _ _
  | some mode =>
      refine .ite (.sendError _ _) (.bind (.withLock _) ?_)
      intro data
      cases data with
      | none =>
          exact .pure ()
      | some data =>
          dsimp only
          cases readWindow .dev data offset count with
          | error cause =>
              exact .throw _
          | ok chunk =>
              exact .sendResponse _ _ _

theorem runs_handleWrite
    (tag : UInt16)
    (body : Bytes) :
    Runs (handleWrite clock tag body)
      (Planten.handleWrite clock tag body) := by
  apply Runs.bind (.parse _ _)
  rintro ⟨⟨fid, offset, buffer⟩, rest⟩
  refine .ofFid (fun state => ?_)
  cases state.openMode with
  | none =>
      exact .sendError _ _
  | some mode =>
      exact .ite (.sendError _ _)
        (.bind (.withLock _) (fun _ => .sendResponse _ _ _))

theorem runs_handleWstat
    (tag : UInt16)
    (body : Bytes) :
    Runs (handleWstat tag body)
      (Planten.handleWstat tag body) := by
  apply Runs.bind (.parse _ _)
  rintro ⟨fid, cursor⟩
  refine .ofFid (fun state => ?_)
  cases decodeStat.run cursor with
  | error err =>
      exact .sendError _ _
  | ok decoded =>
      exact .withLock _

theorem runs_handleRemove
    (tag : UInt16)
    (body : Bytes) :
    Runs (handleRemove tag body)
      (Planten.handleRemove tag body) := by
  apply Runs.bind (.parse _ _)
  rintro ⟨fid, rest⟩
  exact .ofFid (fun _ => .bind (.withLock _) (fun _ =>
    .bind (.removeFid _) (fun _ =>
      .ite (.sendResponse _ _ _) (.sendError _ _))))

/- The dispatch in a thread is the dispatch of a handler. -/
theorem runs_handleMessage
    (msgType : UInt8)
    (tag : UInt16)
    (body : Bytes) :
    Runs (handleMessage hasher clock msgType tag body)
      (Planten.handleMessage hasher clock msgType tag
        body) := by
  unfold handleMessage Planten.handleMessage
  refine .ite ?_ (.ite ?_ (.ite ?_ (.ite ?_ (.ite ?_
    (.ite ?_ (.ite ?_ (.ite ?_ (.ite ?_ (.ite ?_ (.ite ?_
      (.ite ?_ (.ite ?_ (.ite ?_ ?_)))))))))))))
  · exact .bind (.parse _ _) (fun _ => .sendResponse _ _ _)
  · exact runs_handleAttach hasher tag body
  · exact runs_handleWalk hasher tag body
  · exact runs_handleOpen hasher tag body
  · exact runs_handleRead hasher tag body
  · exact runs_handleWrite clock tag body
  · exact runs_handleWstat tag body
  · exact .sendResponse _ _ _
  · exact runs_handleRemove tag body
  · exact .bind (.parse _ _)
      (fun _ => .bind (.removeFid _)
        (fun _ => .sendResponse _ _ _))
  · exact runs_handleStat hasher tag body
  · exact runs_handleClone tag body
  · exact runs_handleCreate hasher clock tag body
  · exact .sendResponse _ _ _
  · exact .sendError _ _

end Threaded

end Planten

------------------------------------------------------------
-- One Section Each
------------------------------------------------------------

namespace Planten

namespace Threaded

variable {α β : Type}

/- A part of a handler that does not take the lock. -/
def Unlocked (x : Threaded α) : Prop :=
  ∀ own, ∃ result, x own = .done result

/- A handler that works on the files in one section. -/
def Single (x : Threaded α) : Prop :=
  ∀ own, (x own).Single

theorem Unlocked.pure (a : α) :
    Unlocked (Pure.pure a) :=
  fun _ => ⟨_, rfl⟩

theorem Unlocked.throw (err : Fault) :
    Unlocked (throw err : Threaded α) :=
  fun _ => ⟨_, rfl⟩

theorem Unlocked.getFids : Unlocked getFids :=
  fun _ => ⟨_, rfl⟩

theorem Unlocked.setFid
    (fid : UInt32)
    (state : FidState) :
    Unlocked (setFid fid state) :=
  fun _ => ⟨_, rfl⟩

theorem Unlocked.removeFid (fid : UInt32) :
    Unlocked (removeFid fid) :=
  fun _ => ⟨_, rfl⟩

theorem Unlocked.parse
    (d : Decoder IoError α)
    (cursor : Bytes) :
    Unlocked (parse d cursor) := by
  intro own
  unfold Threaded.parse
  cases d.run cursor with
  | error err | ok r =>
      exact ⟨_, rfl⟩

theorem Unlocked.sendResponse
    (msgType : UInt8)
    (tag : UInt16)
    (body : Bytes) :
    Unlocked (sendResponse msgType tag body) := by
  intro own
  unfold Threaded.sendResponse
  cases buildFrame msgType tag body with
  | error cause | ok frame =>
      exact ⟨_, rfl⟩

theorem Unlocked.sendError
    (tag : UInt16)
    (message : String) :
    Unlocked (sendError tag message) :=
  .sendResponse _ _ _

theorem Unlocked.bind
    {x : Threaded α}
    {f : α → Threaded β}
    (hFirst : Unlocked x)
    (hRest : ∀ a, Unlocked (f a)) :
    Unlocked (x >>= f) := by
  intro own
  rcases hFirst own with ⟨⟨result, own'⟩, hDone⟩
  change ∃ r, (x own).bind (andThen f) = .done r
  rw [hDone]
  cases result with
  | error err =>
      exact ⟨_, rfl⟩
  | ok a =>
      exact hRest a own'

theorem Unlocked.single
    {x : Threaded α}
    (hUnlocked : Unlocked x) :
    Single x := by
  intro own
  rcases hUnlocked own with ⟨result, hDone⟩
  rw [hDone]
  trivial

/- Work before the section. -/
theorem Single.bind
    {x : Threaded α}
    {f : α → Threaded β}
    (hFirst : Unlocked x)
    (hRest : ∀ a, Single (f a)) :
    Single (x >>= f) := by
  intro own
  rcases hFirst own with ⟨⟨result, own'⟩, hDone⟩
  change ((x own).bind (andThen f)).Single
  rw [hDone]
  cases result with
  | error err =>
      trivial
  | ok a =>
      exact hRest a own'

/- Work after the section. -/
theorem Single.withLock_bind
    {body : Handler α}
    {f : α → Threaded β}
    (hRest : ∀ a, Unlocked (f a)) :
    Single (withLock body >>= f) := by
  intro own shared
  left
  change ∃ r,
    andThen f
      (Session.parts
        (Planten.withLock body (shared.session own))).2 =
      .done r
  rcases (Session.parts
    (Planten.withLock body (shared.session own))).2 with
    ⟨result, own'⟩
  cases result with
  | error err =>
      exact ⟨_, rfl⟩
  | ok a =>
      exact hRest a own'

theorem Single.withLock (body : Handler α) :
    Single (withLock body) :=
  fun _ _ => Or.inl ⟨_, rfl⟩

theorem Single.ite
    {c : Prop}
    [Decidable c]
    {x y : Threaded α}
    (hThen : Single x)
    (hElse : Single y) :
    Single (if c then x else y) := by
  split
  · exact hThen
  · exact hElse

theorem Single.ofFid
    {fid : UInt32}
    {tag : UInt16}
    {f : FidState → Threaded Unit}
    (hRest : ∀ state, Single (f state)) :
    Single
      (do
        match (← Threaded.getFids).lookup fid with
        | none => Threaded.sendError tag "unknown fid"
        | some state => f state) := by
  refine .bind .getFids (fun fids => ?_)
  cases fids.lookup fid with
  | none =>
      exact (Unlocked.sendError _ _).single
  | some state =>
      exact hRest state

variable (hasher : Hasher) (clock : Clock)

theorem single_handleCreate
    (tag : UInt16)
    (body : Bytes) :
    Single (handleCreate hasher clock tag body) := by
  refine .bind (.parse _ _) (fun _ => .ofFid (fun state => ?_))
  split
  · exact (Unlocked.sendError _ _).single
  · exact .withLock _

theorem single_handleStat
    (tag : UInt16)
    (body : Bytes) :
    Single (handleStat hasher tag body) :=
  .bind (.parse _ _) (fun _ => .ofFid (fun _ => .withLock _))

theorem single_handleAttach
    (tag : UInt16)
    (body : Bytes) :
    Single (handleAttach hasher tag body) := by
  refine .bind (.parse _ _) (fun _ => .withLock_bind ?_)
  intro rootQid
  cases rootQid with
  | none =>
      exact .pure ()
  | some rootQid =>
      exact .bind (.setFid _ _) (fun _ => .sendResponse _ _ _)

theorem single_handleOpen
    (tag : UInt16)
    (body : Bytes) :
    Single (handleOpen hasher tag body) := by
  refine .bind (.parse _ _) (fun _ => .ofFid (fun state => ?_))
  refine .withLock_bind (fun inode => ?_)
  cases inode with
  | none =>
      exact .sendError _ _
  | some inode =>
      exact .bind (.setFid _ _) (fun _ => .sendResponse _ _ _)

theorem single_handleRead
    (tag : UInt16)
    (body : Bytes) :
    Single (handleRead hasher tag body) := by
  apply Single.bind (.parse _ _)
  rintro ⟨⟨fid, offset, count⟩, rest⟩
  refine .ofFid (fun state => ?_)
  cases state.openMode with
  | none =>
      exact (Unlocked.sendError _ _).single
  | some mode =>
      refine .ite (Unlocked.sendError _ _).single
        (.withLock_bind (fun data => ?_))
      cases data with
      | none =>
          exact .pure ()
      | some data =>
          dsimp only
          cases readWindow .dev data offset count with
          | error cause =>
              exact .throw _
          | ok chunk =>
              exact .sendResponse _ _ _

theorem single_handleWrite
    (tag : UInt16)
    (body : Bytes) :
    Single (handleWrite clock tag body) := by
  apply Single.bind (.parse _ _)
  rintro ⟨⟨fid, offset, buffer⟩, rest⟩
  refine .ofFid (fun state => ?_)
  cases state.openMode with
  | none =>
      exact (Unlocked.sendError _ _).single
  | some mode =>
      exact .ite (Unlocked.sendError _ _).single
        (.withLock_bind (fun _ => .sendResponse _ _ _))

theorem single_handleWstat
    (tag : UInt16)
    (body : Bytes) :
    Single (handleWstat tag body) := by
  apply Single.bind (.parse _ _)
  rintro ⟨fid, cursor⟩
  refine .ofFid (fun state => ?_)
  cases decodeStat.run cursor with
  | error err =>
      exact (Unlocked.sendError _ _).single
  | ok decoded =>
      exact .withLock _

theorem single_handleRemove
    (tag : UInt16)
    (body : Bytes) :
    Single (handleRemove tag body) := by
  refine .bind (.parse _ _) (fun _ => .ofFid (fun state => ?_))
  refine .withLock_bind (fun success => ?_)
  refine .bind (.removeFid _) (fun _ => ?_)
  split
  · exact .sendResponse _ _ _
  · exact .sendError _ _

theorem unlocked_walkReply
    (tag : UInt16)
    (newfid : UInt32)
    (found : Option (String × List Qid × Qid)) :
    Unlocked (walkReply tag newfid found) := by
  cases found with
  | none =>
      exact .pure ()
  | some target =>
      exact .bind (.setFid _ _) (fun _ => .sendResponse _ _ _)

/- The root is always there. -/
theorem withLock_walkRoot
    (shared : Shared)
    (own : Own) :
    Session.parts
        (Planten.withLock (walkRoot hasher)
          (shared.session own)) =
      if shared.poisoned then
        (shared, .error (.panic .poisonedLock), own)
      else
        (shared,
          .ok (FidState.new "/"
            (qidFromInode hasher "/" shared.ramfs.root)),
          own) := by
  rcases shared with ⟨fs, poisoned⟩
  cases poisoned with
  | true | false =>
      rfl

/-
  What a walk goes on with when it has looked at the root
  does not depend on what it saw.
-/
theorem single_walk_of_root
    {rest : FidState → Threaded Unit}
    {steps : Handler (Option (String × List Qid × Qid))}
    {reply :
      Option (String × List Qid × Qid) → Threaded Unit}
    (hRest :
      ∀ qid, rest (FidState.new "/" qid) =
        withLock steps >>= reply)
    (hReply : ∀ found, Unlocked (reply found)) :
    Single (withLock (walkRoot hasher) >>= rest) := by
  have hSingle : Single (withLock steps >>= reply) :=
    .withLock_bind hReply
  intro own shared
  have hRun (shared : Shared) :
      ((withLock (walkRoot hasher) >>= rest) own).run
          shared =
        ((withLock steps >>= reply) own).run shared := by
    change (andThen rest
        (Session.parts
          (Planten.withLock (walkRoot hasher)
            (shared.session own))).2).run
        (Session.parts
          (Planten.withLock (walkRoot hasher)
            (shared.session own))).1 = _
    rw [withLock_walkRoot]
    rcases shared with ⟨fs, poisoned⟩
    cases poisoned with
    | true =>
        rfl
    | false =>
        exact congrArg (fun x => (x own).run ⟨fs, false⟩)
          (hRest _)
  cases hLock : shared.poisoned with
  | true =>
      left
      change ∃ r, andThen rest
        (Session.parts
          (Planten.withLock (walkRoot hasher)
            (shared.session own))).2 = .done r
      rw [withLock_walkRoot, hLock]
      exact ⟨_, rfl⟩
  | false =>
      right
      have hNext :
          andThen rest
              (Session.parts
                (Planten.withLock (walkRoot hasher)
                  (shared.session own))).2 =
            (withLock steps >>= reply) own := by
        rw [withLock_walkRoot, hLock]
        exact congrFun (hRest _) own
      refine ⟨?_, ?_, ?_⟩
      · change (Session.parts
          (Planten.withLock (walkRoot hasher)
            (shared.session own))).1 = shared
        rw [withLock_walkRoot, hLock]
        rfl
      · change (andThen rest
          (Session.parts
            (Planten.withLock (walkRoot hasher)
              (shared.session own))).2).Single
        rw [hNext]
        exact hSingle own
      · intro shared'
        exact (congrArg (Thread.run · shared') hNext).trans
          (hRun shared').symm

theorem single_handleWalk
    (tag : UInt16)
    (body : Bytes) :
    Single (handleWalk hasher tag body) := by
  apply Single.bind (.parse _ _)
  rintro ⟨⟨fid, newfid, nwname⟩, cursor⟩
  dsimp only
  intro own
  cases hFid : own.fids.lookup fid with
  | some state =>
      have hBase :
          walkBase hasher fid own = .done (.ok state, own) := by
        change (match own.fids.lookup fid with
          | some state => (Pure.pure state : Threaded FidState)
          | none => withLock (walkRoot hasher)) own = _
        rw [hFid]
        rfl
      change ((walkBase hasher fid own).bind _).Single
      rw [hBase]
      exact Single.withLock_bind
        (unlocked_walkReply tag newfid) own
  | none =>
      have hBase :
          walkBase hasher fid own =
            withLock (walkRoot hasher) own := by
        change (match own.fids.lookup fid with
          | some state => (Pure.pure state : Threaded FidState)
          | none => withLock (walkRoot hasher)) own = _
        rw [hFid]
      change ((walkBase hasher fid own).bind _).Single
      rw [hBase]
      exact @single_walk_of_root hasher _
        (walkSteps hasher tag nwname cursor "/")
        (walkReply tag newfid) (fun _ => rfl)
        (unlocked_walkReply tag newfid) own

/- Every frame is handled in one section. -/
theorem single_handleMessage
    (msgType : UInt8)
    (tag : UInt16)
    (body : Bytes) :
    Single (handleMessage hasher clock msgType tag body) := by
  unfold handleMessage
  refine .ite ?_ (.ite ?_ (.ite ?_ (.ite ?_ (.ite ?_
    (.ite ?_ (.ite ?_ (.ite ?_ (.ite ?_ (.ite ?_ (.ite ?_
      (.ite ?_ (.ite ?_ (.ite ?_ ?_)))))))))))))
  · exact .bind (.parse _ _)
      (fun _ => (Unlocked.sendResponse _ _ _).single)
  · exact single_handleAttach hasher tag body
  · exact single_handleWalk hasher tag body
  · exact single_handleOpen hasher tag body
  · exact single_handleRead hasher tag body
  · exact single_handleWrite clock tag body
  · exact single_handleWstat tag body
  · exact (Unlocked.sendResponse _ _ _).single
  · exact single_handleRemove tag body
  · exact .bind (.parse _ _) (fun _ =>
      (Unlocked.bind (.removeFid _)
        (fun _ => .sendResponse _ _ _)).single)
  · exact single_handleStat hasher tag body
  · exact .bind (.parse _ _) (fun _ => .ofFid (fun _ =>
      (Unlocked.bind (.setFid _ _)
        (fun _ => .sendResponse _ _ _)).single))
  · exact single_handleCreate hasher clock tag body
  · exact (Unlocked.sendResponse _ _ _).single
  · exact (Unlocked.sendError _ _).single

end Threaded

end Planten

------------------------------------------------------------
-- Interleaved Servers
------------------------------------------------------------

namespace Planten

namespace Server

variable (hasher : Hasher)

/-
  What is kept of a connection after a frame, and what is
  sent.  An error and a panic both end the thread.
-/
def threadEnd :
    Except Fault Unit × Own → Option FidTable × Bytes
| (.ok (), own) => (some own.fids, own.sent)
| (.error _, _) => (none, [])

/- The thread of an event on a connection. -/
def program :
    Event → Option FidTable →
      Thread Shared (Option FidTable × Bytes)
| .accept _, fids => .done (some (fids.getD []), [])
| .close _, _ => .done (none, [])
| .request _ _ _ _ _, none => .done (none, [])
| .request _ msgType tag body clock, some fids =>
    (Threaded.handleMessage hasher clock msgType tag body
      ⟨fids, []⟩).bind (fun result => .done (threadEnd result))

/- A server as a desk for the events of its connections. -/
def desk
    (srv : Server) : Desk Shared Nat (Option FidTable) :=
  ⟨⟨srv.ramfs, srv.poisoned⟩, srv.conns⟩

/- A server whose connections all wait for a frame. -/
def pool
    (srv : Server) :
    Pool Shared Nat (Option FidTable) Event Bytes :=
  ⟨⟨srv.ramfs, srv.poisoned⟩, fun conn => .idle (srv.conns conn)⟩

/- Each event is done in one section. -/
theorem single_program
    (event : Event)
    (fids : Option FidTable) :
    (program hasher event fids).Single := by
  cases event with
  | accept conn | close conn =>
      trivial
  | request conn msgType tag body clock =>
      cases fids with
      | none =>
          trivial
      | some fids =>
          exact (Threaded.single_handleMessage hasher clock
            msgType tag body ⟨fids, []⟩).map threadEnd

/- One event does at the desk what it does at the server. -/
theorem desk_step
    (srv : Server)
    (event : Event) :
    (srv.step hasher event).desk =
        srv.desk.step Event.conn (program hasher) event ∧
      srv.sent hasher event =
        srv.desk.emitted Event.conn (program hasher)
          event := by
  cases event with
  | close conn =>
      exact ⟨rfl, rfl⟩
  | accept conn =>
      refine ⟨?_, rfl⟩
      cases hConn : srv.conns conn with
      | none =>
          simp only [step, desk, Desk.step, Event.conn, program,
            Thread.run_done, hConn, Option.isSome_none,
            Bool.false_eq_true, if_false, Option.getD_none]
      | some fids =>
          have hSame :
              Function.update srv.conns conn (some fids) =
                srv.conns := by
            rw [← hConn, Function.update_eq_self]
          simp only [step, desk, Desk.step, Event.conn, program,
            Thread.run_done, hConn, Option.isSome_some, if_true,
            Option.getD_some, hSame]
  | request conn msgType tag body clock =>
      cases hConn : srv.conns conn with
      | none =>
          have hSame :
              Function.update srv.conns conn none =
                srv.conns := by
            rw [← hConn, Function.update_eq_self]
          simp only [step, sent, handle, desk, Desk.step,
            Desk.emitted, Event.conn, program, hConn,
            Thread.run_done, Option.map_none,
            Option.elim_none, hSame, and_self]
      | some fids =>
          have hRun :
              (Threaded.handleMessage hasher clock msgType tag
                body ⟨fids, []⟩).run
                  ⟨srv.ramfs, srv.poisoned⟩ =
                Session.parts
                  (handleMessage hasher clock msgType tag body
                    (srv.session fids)) :=
            Threaded.runs_handleMessage hasher clock msgType
              tag body ⟨srv.ramfs, srv.poisoned⟩ ⟨fids, []⟩
          simp only [step, sent, handle, desk, Desk.step,
            Desk.emitted, Event.conn, program, hConn,
            Thread.run_bind, Thread.run_done, hRun,
            Option.map_some, Option.elim_some]
          cases handleMessage hasher clock msgType tag body
            (srv.session fids) with
          | ok done s | error err s =>
              exact ⟨rfl, rfl⟩

/- A server and its desk step together. -/
theorem desk_simulation :
    Run.Simulation (step hasher) (sent hasher)
      (Desk.step Event.conn (program hasher))
      (Desk.emitted Event.conn (program hasher))
      (fun _ _ => True)
      (fun srv desk => srv.desk = desk)
      (fun bytes bytes' => bytes = bytes') where
  step := by
    rintro srv _ event rfl _
    exact (desk_step hasher srv event).1
  out := by
    rintro srv _ event rfl _
    exact (desk_step hasher srv event).2

/-
  Whatever the scheduler does with the threads of the
  connections, there is an order of their events, each taking
  effect at a moment when its thread is at work on it, in
  which the server handles one event at once and gets to the
  same files and lock.  The events of a connection in that
  order are those its thread has taken, in order, but for
  the last while the thread is still at work on it.  Every
  connection has been sent what it is sent in that order, but
  for the last reply while its thread is still at work.
-/
theorem linearizable
    (srv : Server)
    (moves : List (Move Nat Event)) :
    ∃ commits,
      srv.pool.Commits Event.conn (program hasher) moves
          commits ∧
        (Run.final (Pool.step Event.conn (program hasher))
          srv.pool moves).shared =
            (Run.final (step hasher) srv
              commits.reduceOption).desk.shared ∧
        ∀ conn,
          (∃ undone,
            commits.reduceOption.filter
                (fun event => event.conn = conn) ++ undone =
              srv.pool.given Event.conn (program hasher) conn
                moves ∧
            undone <+:
              ((Run.final
                (Pool.step Event.conn (program hasher))
                srv.pool moves).workers conn).jobs) ∧
          srv.pool.outputs Event.conn (program hasher) conn
              moves <+:
            Run.outputsOf (fun event => event.conn = conn)
              (step hasher) (sent hasher) srv
              commits.reduceOption ∧
          ∀ fids,
            (Run.final (Pool.step Event.conn (program hasher))
              srv.pool moves).workers conn = .idle fids →
            (Run.final (step hasher) srv
              commits.reduceOption).conns conn = fids ∧
            srv.pool.outputs Event.conn (program hasher) conn
                moves =
              Run.outputsOf (fun event => event.conn = conn)
                (step hasher) (sent hasher) srv
                commits.reduceOption := by
  have hLinear :=
    Pool.linearizes Event.conn (single_program hasher)
      (Shared.mk srv.ramfs srv.poisoned) srv.conns moves
  rcases hLinear with ⟨commits, hCommits, hShared, hConns⟩
  have hOk :=
    Run.always_trivial (step hasher) srv commits.reduceOption
  have hFinal :=
    (desk_simulation hasher).final (rfl : srv.desk = _) hOk
  have hOutputs (conn : Nat) :=
    (desk_simulation hasher).outputsOf
      (fun event => event.conn = conn) (rfl : srv.desk = _)
      hOk
  refine ⟨commits, hCommits, ?_, fun conn => ⟨?_, ?_, ?_⟩⟩
  · rw [hFinal]
    exact hShared
  · exact (hConns conn).1
  · rw [hOutputs conn]
    exact (hConns conn).2.1
  · intro fids hIdle
    rcases (hConns conn).2.2 fids hIdle with ⟨hKept, hSame⟩
    rw [hOutputs conn]
    refine ⟨?_, hSame⟩
    exact (congrArg (fun desk => Desk.kept desk conn)
      hFinal).trans hKept

end Server

end Planten
