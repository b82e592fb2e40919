import Planten.RamFs.Panics

/-
  The server under a poisoned lock.

  A panic under the lock poisons it for good.  From then on
  a request that gets as far as the lock panics, whatever
  connection it is on, and the others are answered without
  a look at the file system.

  Key definitions include:
    * `Request.locks`
    * `PoisonedOutcome`
    * `Server.AnswersOnlyUnlocked`

  Key theorems include:
    * `handleMessage_poisoned`
    * `Server.poisoned_for_good`
-/

------------------------------------------------------------
-- Requests that Lock
------------------------------------------------------------

namespace Planten

/- The handler of the request gets as far as the lock. -/
def Request.locks
    (fids : FidTable) : Request → Bool
| .tattach _ _ _ _ => true
| .twalk _ _ _ _ => true
| .topen fid _ => (fids.lookup fid).isSome
| .tstat fid => (fids.lookup fid).isSome
| .tremove fid => (fids.lookup fid).isSome
| .tcreate fid name _ _ =>
    (fids.lookup fid).any (fun state =>
      (resolveStep state.path name).isSome)
| .tread fid _ _ =>
    (fids.lookup fid).any (fun state =>
      state.openMode.any modeAllowsRead)
| .twrite fid _ _ =>
    (fids.lookup fid).any (fun state =>
      state.openMode.any modeAllowsWrite)
| .twstat fid record =>
    (fids.lookup fid).isSome && (decodeStat.run record).isOk
| _ => false

/-
  How a handler ends under a poisoned lock: with a panic if
  it gets to the lock, and with an answer otherwise.
-/
inductive PoisonedOutcome
    (s : Session) :
    Except IoError Request →
      EStateM.Result Fault Session Unit → Prop where
| malformed (err : IoError) :
    PoisonedOutcome s (.error err) (.error (.io err) s)
| locked
    {req : Request}
    (hLocks : req.locks s.fids = true) :
    PoisonedOutcome s (.ok req)
      (.error (.panic .poisonedLock) s)
| answered
    {req : Request} {s' : Session}
    (hFree : req.locks s.fids = false) :
    PoisonedOutcome s (.ok req) (.ok () s')

end Planten

------------------------------------------------------------
-- Handlers under a Poisoned Lock
------------------------------------------------------------

namespace Planten

variable {s : Session}

/- An answer with a small reply. -/
theorem PoisonedOutcome.reply
    {req : Request}
    (reply : Reply)
    (hSmall : reply.Small)
    (hFree : req.locks s.fids = false)
    (tag : UInt16)
    (s' : Session) :
    PoisonedOutcome s (.ok req)
      (sendResponse reply.msgType tag reply.body s') := by
  rw [run_sendResponse, hSmall.frame tag]
  exact .answered hFree

/- An error message before the lock. -/
theorem PoisonedOutcome.refused
    {req : Request}
    {message : String}
    (hShort : message.utf8ByteSize < 2 ^ 19)
    (hFree : req.locks s.fids = false)
    (tag : UInt16) :
    PoisonedOutcome s (.ok req) (sendError tag message s) :=
  .reply (.rerror message) (small_rerror hShort) hFree tag s

variable (hasher : Hasher) (clock : Clock)
variable (tag : UInt16) (body : Bytes)
variable (hPoisoned : s.poisoned = true)

theorem handleVersion_poisoned :
    PoisonedOutcome s
      ((versionFields.run body).map
        (fun r => Request.tversion r.1.1 r.1.2))
      (handleVersion tag body s) := by
  rw [handleVersion, run_bind, run_parse]
  cases versionFields.run body with
  | error err =>
      exact .malformed err
  | ok r =>
      exact .reply (.rversion 131072 "9P2000") small_rversion
        rfl tag s

theorem handleClunk_poisoned :
    PoisonedOutcome s
      ((readU32.run body).map (fun r => Request.tclunk r.1))
      (handleClunk tag body s) := by
  rw [handleClunk, run_bind, run_parse]
  cases readU32.run body with
  | error err =>
      exact .malformed err
  | ok r =>
      exact .reply .rclunk (small_of_fixed (by decide)) rfl
        tag _

theorem handleClone_poisoned :
    PoisonedOutcome s
      ((cloneFields.run body).map
        (fun r => Request.tclone r.1.1 r.1.2))
      (handleClone tag body s) := by
  rw [handleClone, run_bind, run_parse]
  cases cloneFields.run body with
  | error err =>
      exact .malformed err
  | ok r =>
      rcases r with ⟨⟨fid, newfid⟩, rest⟩
      simp only [run_bind, run_get]
      cases s.fids.lookup fid with
      | none =>
          exact .refused (by decide) rfl tag
      | some state =>
          exact .reply .rclone (small_of_fixed (by decide))
            rfl tag _

include hPoisoned

theorem handleAttach_poisoned :
    PoisonedOutcome s
      ((attachFields.run body).map
        (fun r =>
          Request.tattach r.1.1 r.1.2.1 r.1.2.2.1
            r.1.2.2.2))
      (handleAttach hasher tag body s) := by
  rw [handleAttach, run_bind, run_parse]
  cases attachFields.run body with
  | error err =>
      exact .malformed err
  | ok r =>
      simp only [run_bind, run_withLock_poisoned _ hPoisoned]
      exact .locked rfl

theorem handleWalk_poisoned :
    PoisonedOutcome s
      ((walkFields.run body).map
        (fun r =>
          Request.twalk r.1.1 r.1.2.1 r.1.2.2 r.2))
      (handleWalk hasher tag body s) := by
  rw [handleWalk, run_bind, run_parse]
  cases walkFields.run body with
  | error err =>
      exact .malformed err
  | ok r =>
      rcases r with ⟨⟨fid, newfid, nwname⟩, cursor⟩
      simp only
      rw [run_walk_poisoned hasher tag s fid nwname cursor _
        hPoisoned]
      exact .locked rfl

theorem handleOpen_poisoned :
    PoisonedOutcome s
      ((openFields.run body).map
        (fun r => Request.topen r.1.1 r.1.2))
      (handleOpen hasher tag body s) := by
  rw [handleOpen, run_bind, run_parse]
  cases openFields.run body with
  | error err =>
      exact .malformed err
  | ok r =>
      rcases r with ⟨⟨fid, mode⟩, rest⟩
      simp only [run_bind, run_get]
      cases hFid : s.fids.lookup fid with
      | none =>
          exact .refused (by decide)
            (by simp [Request.locks, hFid]) tag
      | some state =>
          simp only [run_bind,
            run_withLock_poisoned _ hPoisoned]
          exact .locked (by simp [Request.locks, hFid])

theorem handleRemove_poisoned :
    PoisonedOutcome s
      ((readU32.run body).map (fun r => Request.tremove r.1))
      (handleRemove tag body s) := by
  rw [handleRemove, run_bind, run_parse]
  cases readU32.run body with
  | error err =>
      exact .malformed err
  | ok r =>
      rcases r with ⟨fid, rest⟩
      simp only [run_bind, run_get]
      cases hFid : s.fids.lookup fid with
      | none =>
          exact .refused (by decide)
            (by simp [Request.locks, hFid]) tag
      | some state =>
          simp only [run_bind,
            run_withLock_poisoned _ hPoisoned]
          exact .locked (by simp [Request.locks, hFid])

theorem handleStat_poisoned :
    PoisonedOutcome s
      ((readU32.run body).map (fun r => Request.tstat r.1))
      (handleStat hasher tag body s) := by
  rw [handleStat, run_bind, run_parse]
  cases readU32.run body with
  | error err =>
      exact .malformed err
  | ok r =>
      rcases r with ⟨fid, rest⟩
      simp only [run_bind, run_get]
      cases hFid : s.fids.lookup fid with
      | none =>
          exact .refused (by decide)
            (by simp [Request.locks, hFid]) tag
      | some state =>
          simp only [run_withLock_poisoned _ hPoisoned]
          exact .locked (by simp [Request.locks, hFid])

theorem handleWstat_poisoned :
    PoisonedOutcome s
      ((readU32.run body).map
        (fun r => Request.twstat r.1 r.2))
      (handleWstat tag body s) := by
  rw [handleWstat, run_bind, run_parse]
  cases readU32.run body with
  | error err =>
      exact .malformed err
  | ok r =>
      rcases r with ⟨fid, record⟩
      simp only [run_bind, run_get]
      cases hFid : s.fids.lookup fid with
      | none =>
          exact .refused (by decide)
            (by simp [Request.locks, hFid]) tag
      | some state =>
          simp only
          cases hRecord : decodeStat.run record with
          | error err =>
              exact .refused
                ((short_wstatFormat hRecord).trans_lt
                  (by decide))
                (by simp [Request.locks, hRecord,
                  Except.isOk, Except.toBool]) tag
          | ok r =>
              simp only [run_withLock_poisoned _ hPoisoned]
              exact .locked
                (by simp [Request.locks, hFid, hRecord,
                  Except.isOk, Except.toBool])

theorem handleRead_poisoned :
    PoisonedOutcome s
      ((readFields.run body).map
        (fun r => Request.tread r.1.1 r.1.2.1 r.1.2.2))
      (handleRead hasher tag body s) := by
  rw [handleRead, run_bind, run_parse]
  cases readFields.run body with
  | error err =>
      exact .malformed err
  | ok r =>
      rcases r with ⟨⟨fid, offset, count⟩, rest⟩
      simp only [run_bind, run_get]
      cases hFid : s.fids.lookup fid with
      | none =>
          exact .refused (by decide)
            (by simp [Request.locks, hFid]) tag
      | some state =>
          simp only
          cases hMode : state.openMode with
          | none =>
              exact .refused (by decide)
                (by simp [Request.locks, hFid, hMode]) tag
          | some mode =>
              simp only
              cases hAllowed : modeAllowsRead mode with
              | false =>
                  exact .refused (by decide)
                    (by simp [Request.locks, hFid, hMode,
                      hAllowed]) tag
              | true =>
                  simp only [not_true_eq_false, if_false,
                    run_bind,
                    run_withLock_poisoned _ hPoisoned]
                  exact .locked
                    (by simp [Request.locks, hFid, hMode,
                      hAllowed])

theorem handleWrite_poisoned :
    PoisonedOutcome s
      ((writeFields.run body).map
        (fun r => Request.twrite r.1.1 r.1.2.1 r.1.2.2))
      (handleWrite clock tag body s) := by
  rw [handleWrite, run_bind, run_parse]
  cases writeFields.run body with
  | error err =>
      exact .malformed err
  | ok r =>
      rcases r with ⟨⟨fid, offset, buffer⟩, rest⟩
      simp only [run_bind, run_get]
      cases hFid : s.fids.lookup fid with
      | none =>
          exact .refused (by decide)
            (by simp [Request.locks, hFid]) tag
      | some state =>
          simp only
          cases hMode : state.openMode with
          | none =>
              exact .refused (by decide)
                (by simp [Request.locks, hFid, hMode]) tag
          | some mode =>
              simp only
              cases hAllowed : modeAllowsWrite mode with
              | false =>
                  exact .refused (by decide)
                    (by simp [Request.locks, hFid, hMode,
                      hAllowed]) tag
              | true =>
                  simp only [not_true_eq_false, if_false,
                    run_bind,
                    run_withLock_poisoned _ hPoisoned]
                  exact .locked
                    (by simp [Request.locks, hFid, hMode,
                      hAllowed])

theorem handleCreate_poisoned :
    PoisonedOutcome s
      ((createFields.run body).map
        (fun r =>
          Request.tcreate r.1.1 r.1.2.1 r.1.2.2.1
            r.1.2.2.2))
      (handleCreate hasher clock tag body s) := by
  rw [handleCreate, run_bind, run_parse]
  cases createFields.run body with
  | error err =>
      exact .malformed err
  | ok r =>
      rcases r with ⟨⟨fid, name, perm, mode⟩, rest⟩
      simp only [run_bind, run_get]
      cases hFid : s.fids.lookup fid with
      | none =>
          exact .refused (by decide)
            (by simp [Request.locks, hFid]) tag
      | some state =>
          simp only
          cases hStep : resolveStep state.path name with
          | none =>
              exact .refused (by decide)
                (by simp [Request.locks, hFid, hStep]) tag
          | some newPath =>
              simp only [run_withLock_poisoned _ hPoisoned]
              exact .locked
                (by simp [Request.locks, hFid, hStep])

omit hPoisoned in
/- Both sides of a dispatch test take the same branch. -/
theorem poisonedOutcome_ite
    {p : Prop}
    [Decidable p]
    {decoded decoded' : Except IoError Request}
    {handler handler' : Handler Unit}
    (hThen : PoisonedOutcome s decoded (handler s))
    (hElse : PoisonedOutcome s decoded' (handler' s)) :
    PoisonedOutcome s (if p then decoded else decoded')
      ((if p then handler else handler') s) := by
  split
  · exact hThen
  · exact hElse

/- Under a poisoned lock the requests that lock panic. -/
theorem handleMessage_poisoned
    (msgType : UInt8) :
    PoisonedOutcome s (Request.decode msgType body)
      (handleMessage hasher clock msgType tag body s) := by
  unfold Request.decode handleMessage
  refine poisonedOutcome_ite
    (handleVersion_poisoned tag body) ?_
  refine poisonedOutcome_ite
    (handleAttach_poisoned hasher tag body hPoisoned) ?_
  refine poisonedOutcome_ite
    (handleWalk_poisoned hasher tag body hPoisoned) ?_
  refine poisonedOutcome_ite
    (handleOpen_poisoned hasher tag body hPoisoned) ?_
  refine poisonedOutcome_ite
    (handleRead_poisoned hasher tag body hPoisoned) ?_
  refine poisonedOutcome_ite
    (handleWrite_poisoned clock tag body hPoisoned) ?_
  refine poisonedOutcome_ite
    (handleWstat_poisoned tag body hPoisoned) ?_
  refine poisonedOutcome_ite
    (.reply .rflush (small_of_fixed (by decide)) rfl tag s)
    ?_
  refine poisonedOutcome_ite
    (handleRemove_poisoned tag body hPoisoned) ?_
  refine poisonedOutcome_ite
    (handleClunk_poisoned tag body) ?_
  refine poisonedOutcome_ite
    (handleStat_poisoned hasher tag body hPoisoned) ?_
  refine poisonedOutcome_ite
    (handleClone_poisoned tag body) ?_
  refine poisonedOutcome_ite
    (handleCreate_poisoned hasher clock tag body hPoisoned)
    ?_
  refine poisonedOutcome_ite
    (.reply (.rauth ⟨0, 0, 0⟩) (small_of_fixed (by decide))
      rfl tag s) ?_
  exact .refused (by decide) rfl tag

end Planten

------------------------------------------------------------
-- Effects without the Lock
------------------------------------------------------------

namespace Planten

/- A reply that is made without the lock. -/
def Reply.Unlocked : Reply → Prop
| .rversion _ _ | .rauth _ | .rflush | .rclone | .rclunk
| .rerror _ => True
| _ => False

/- A request that does not lock leaves the files alone. -/
theorem Effect.unlocked
    {hasher : Hasher}
    {clock : Clock}
    {fs fs' : RamFs}
    {fids fids' : FidTable}
    {req : Request}
    {reply : Reply}
    (hEffect :
      Effect hasher clock fs fids req fs' fids' reply)
    (hFree : req.locks fids = false) :
    fs' = fs ∧ reply.Unlocked := by
  cases hEffect with
  | version | auth | flush | clunk | clone hFid
  | refused hRefusal =>
      exact ⟨rfl, trivial⟩
  | attach | walk hNames hTarget =>
      cases hFree
  | opened hFid hOp | remove hFid hOp | removeFailed hFid hOp
  | stat hFid hOp =>
      simp [Request.locks, hFid] at hFree
  | create hFid hStep hFresh hOp hStat =>
      simp [Request.locks, hFid, hStep] at hFree
  | read hFid hMode hAllowed hData hWindow =>
      simp [Request.locks, hFid, hMode, hAllowed] at hFree
  | write hFid hMode hAllowed hOp =>
      simp [Request.locks, hFid, hMode, hAllowed] at hFree
  | wstat hFid hRecord hOp =>
      simp [Request.locks, hFid, hRecord, Except.isOk,
        Except.toBool] at hFree

end Planten

------------------------------------------------------------
-- Runs of a Poisoned Server
------------------------------------------------------------

namespace Planten

namespace Server

variable {hasher : Hasher} {srv : Server}

/- A request that locks ends its connection in a panic. -/
theorem step_of_locks
    {conn : Nat}
    {fids : FidTable}
    {msgType : UInt8}
    {body : Bytes}
    {req : Request}
    (hPoisoned : srv.poisoned = true)
    (hConn : srv.conns conn = some fids)
    (hDecode : Request.decode msgType body = .ok req)
    (hLocks : req.locks fids = true)
    (tag : UInt16)
    (clock : Clock) :
    srv.Panics hasher
        (.request conn msgType tag body clock) ∧
      srv.step hasher
          (.request conn msgType tag body clock) =
        { srv with
          conns := Function.update srv.conns conn none } := by
  have hHandle :=
    handle_of_open hConn hasher msgType tag body clock
  have hEnd :=
    @handleMessage_poisoned (srv.session fids) hasher clock
      tag body hPoisoned msgType
  rw [hDecode] at hEnd
  generalize
    handleMessage hasher clock msgType tag body
      (srv.session fids) = result at hHandle hEnd
  cases hEnd with
  | locked _ =>
      refine ⟨⟨_, _, hHandle⟩, ?_⟩
      simp only [step, hHandle]
      rfl
  | answered hFree =>
      cases hLocks.symm.trans hFree

/- A request that does not lock is answered. -/
theorem step_of_free
    {conn : Nat}
    {fids : FidTable}
    {msgType : UInt8}
    {body : Bytes}
    {req : Request}
    (hPoisoned : srv.poisoned = true)
    (hConn : srv.conns conn = some fids)
    (hDecode : Request.decode msgType body = .ok req)
    (hFree : req.locks fids = false)
    (tag : UInt16)
    (clock : Clock) :
    ∃ fids', ∃ reply : Reply,
      srv.replyType hasher
          (.request conn msgType tag body clock) =
        some reply.msgType ∧
      reply.Unlocked ∧
      srv.step hasher
          (.request conn msgType tag body clock) =
        { srv with
          conns :=
            Function.update srv.conns conn (some fids') } := by
  have hHandle :=
    handle_of_open hConn hasher msgType tag body clock
  have hEnd :=
    @handleMessage_poisoned (srv.session fids) hasher clock
      tag body hPoisoned msgType
  have hOutcome :=
    handleMessage_outcome hasher clock tag body
      (srv.session fids) msgType
  rw [hDecode] at hEnd hOutcome
  generalize
    handleMessage hasher clock msgType tag body
      (srv.session fids) = result at hHandle hEnd hOutcome
  cases hEnd with
  | locked hLocks =>
      cases hLocks.symm.trans hFree
  | answered _ =>
      cases hOutcome with
      | served hEffect hFrame =>
          rename_i fs fids' reply frame
          rcases hEffect.unlocked hFree with
            ⟨rfl, hUnlocked⟩
          refine ⟨fids', reply, ?_, hUnlocked, ?_⟩
          · rw [replyType, sent, hHandle]
            exact type_of_buildFrame hFrame
          · simp only [step, hHandle]
            rfl

/-
  What the requests come to at a server: those that lock
  panic, and are not answered, and the others are answered
  without a look at the files.
-/
structure AnswersOnlyUnlocked
    (hasher : Hasher)
    (srv : Server) : Prop where
  locked :
    ∀ event clock fids req,
      srv.Asks event clock fids req →
        req.locks fids = true →
          srv.Panics hasher event ∧
            srv.replyType hasher event = none ∧
            (srv.step hasher event).conns event.conn = none
  unlocked :
    ∀ event clock fids req,
      srv.Asks event clock fids req →
        req.locks fids = false →
          ∃ reply : Reply,
            srv.replyType hasher event =
                some reply.msgType ∧
              reply.Unlocked

theorem answersOnlyUnlocked_of_poisoned
    (hPoisoned : srv.poisoned = true) :
    srv.AnswersOnlyUnlocked hasher where
  locked := by
    rintro event clock fids req
      ⟨conn, msgType, tag, body, rfl, hConn, hDecode⟩ hLocks
    rcases @step_of_locks hasher srv _ _ _ _ _ hPoisoned
      hConn hDecode hLocks tag clock with ⟨hPanics, hStep⟩
    refine ⟨hPanics, ?_, ?_⟩
    · rw [replyType, sent_of_panics hasher hPanics]
      rfl
    · rw [hStep]
      exact Function.update_self conn none srv.conns
  unlocked := by
    rintro event clock fids req
      ⟨conn, msgType, tag, body, rfl, hConn, hDecode⟩ hFree
    rcases @step_of_free hasher srv _ _ _ _ _ hPoisoned
      hConn hDecode hFree tag clock with
      ⟨_, reply, hType, hUnlocked, _⟩
    exact ⟨reply, hType, hUnlocked⟩

/- No event changes the files under a poisoned lock. -/
theorem step_poisoned
    (hasher : Hasher)
    (hPoisoned : srv.poisoned = true)
    (event : Event) :
    (srv.step hasher event).ramfs = srv.ramfs ∧
      (srv.step hasher event).poisoned = true := by
  rcases step_spec hasher srv event with ⟨reply, hStep, _⟩
  generalize hNext : srv.step hasher event = srv'
    at hStep ⊢
  cases hStep with
  | accepted hClosed | reopened hOpen | lost hClosed
  | closed | malformed hConn hDecode
  | badName hConn hDecode hNames =>
      exact ⟨rfl, hPoisoned⟩
  | panicked hConn hDecode hHazard hPanics =>
      refine ⟨rfl, ?_⟩
      rw [hPoisoned]
      rfl
  | served hConn hDecode hEffect hFrame hSent =>
      rename_i conn msgType tag body clock fids fids' req fs
        reply frame hType
      cases hLocks : req.locks fids with
      | true =>
          have hGone :=
            (@step_of_locks hasher srv _ _ _ _ _ hPoisoned
              hConn hDecode hLocks tag clock).2
          rw [hNext] at hGone
          have hSame := congrArg Server.ramfs hGone
          exact ⟨hSame, hPoisoned⟩
      | false =>
          exact ⟨(hEffect.unlocked hLocks).1, hPoisoned⟩

/-
  From a panic under the lock on, whatever the connections
  do, the files stay as they are, every request that gets to
  the lock ends its connection without a reply, and every
  other one is answered.
-/
theorem poisoned_for_good
    (hasher : Hasher)
    (srv : Server)
    (hPoisoned : srv.poisoned = true)
    (events : List Event) :
    (Run.final (step hasher) srv events).ramfs = srv.ramfs ∧
      (Run.final (step hasher) srv events).poisoned = true ∧
      (Run.final (step hasher) srv events).AnswersOnlyUnlocked
        hasher := by
  have hKept :
      (Run.final (step hasher) srv events).ramfs =
          srv.ramfs ∧
        (Run.final (step hasher) srv events).poisoned =
          true := by
    refine @Run.invariant _ _ (step hasher)
      (fun srv' =>
        srv'.ramfs = srv.ramfs ∧ srv'.poisoned = true)
      ?_ srv ⟨rfl, hPoisoned⟩ events
    rintro srv' event ⟨hSame, hStill⟩
    rcases step_poisoned hasher hStill event with
      ⟨hFiles, hLock⟩
    exact ⟨hFiles.trans hSame, hLock⟩
  exact ⟨hKept.1, hKept.2,
    answersOnlyUnlocked_of_poisoned hKept.2⟩

/- Here the lock is poisoned by a write at the last offset. -/
def overflown : Server :=
  Run.final (step (fun _ _ => 0)) (start (RamFs.fresh 0))
    (oneByteWrite 0xffffffffffffffff)

theorem poisoned_for_good_of_overflown :
    overflown.poisoned = true ∧
      (Run.final (step (fun _ _ => 0)) overflown
        (oneByteWrite 0)).ramfs = overflown.ramfs ∧
      (Run.final (step (fun _ _ => 0)) overflown
        (oneByteWrite 0)).poisoned = true ∧
      (Run.final (step (fun _ _ => 0)) overflown
        (oneByteWrite 0)).AnswersOnlyUnlocked
          (fun _ _ => 0) := by
  have hPoisoned : overflown.poisoned = true := by
    decide +kernel
  exact ⟨hPoisoned,
    poisoned_for_good (fun _ _ => 0) overflown hPoisoned
      (oneByteWrite 0)⟩

end Server

end Planten
