import Planten.RamFs.Changes

/-
  Every handler ends in one of the listed outcomes.

  Each lemma follows one handler through its early exits.

  Key theorems include:
    * `handleMessage_outcome`
-/

------------------------------------------------------------
-- Running Handlers
------------------------------------------------------------

namespace Planten

variable {α β : Type}

@[simp] theorem run_bind
    (x : Handler α)
    (f : α → Handler β)
    (s : Session) :
    (x >>= f) s =
      match x s with
      | .ok a s' => f a s'
      | .error e s' => .error e s' := by
  change EStateM.bind x f s = _
  unfold EStateM.bind
  cases x s with
  | ok a s' =>
      rfl
  | error e s' =>
      rfl

@[simp] theorem run_pure
    (a : α)
    (s : Session) :
    (pure a : Handler α) s = .ok a s := rfl

@[simp] theorem run_get (s : Session) :
    (get : Handler Session) s = .ok s s := rfl

theorem run_parse
    (d : Decoder IoError α)
    (cursor : Bytes)
    (s : Session) :
    parse d cursor s =
      match d.run cursor with
      | .ok r => .ok r s
      | .error err => .error (.io err) s := rfl

theorem run_withLock
    (body : Handler α)
    {s : Session}
    (hUnpoisoned : s.poisoned = false) :
    withLock body s = poisonOnPanic (body s) := by
  unfold withLock
  rw [if_neg (by rw [hUnpoisoned]; exact Bool.false_ne_true)]

theorem run_withLock_poisoned
    (body : Handler α)
    {s : Session}
    (hPoisoned : s.poisoned = true) :
    withLock body s =
      .error (.panic .poisonedLock) s := by
  simp [withLock, hPoisoned]

theorem run_onGuard
    (op : RamFs → Except Panic (RamFs × β))
    (s : Session) :
    onGuard op s =
      match op s.ramfs with
      | .ok (ramfs, b) => .ok b { s with ramfs := ramfs }
      | .error cause => .error (.panic cause) s := rfl

theorem run_sendResponse
    (reply : Reply)
    (tag : UInt16)
    (s : Session) :
    sendResponse reply.msgType tag reply.body s =
      match reply.frame tag with
      | .ok frame => .ok () { s with sent := s.sent ++ frame }
      | .error cause => .error (.panic cause) s := rfl

theorem run_sendError
    (tag : UInt16)
    (message : String)
    (s : Session) :
    sendError tag message s =
      match (Reply.rerror message).frame tag with
      | .ok frame => .ok () { s with sent := s.sent ++ frame }
      | .error cause => .error (.panic cause) s := rfl

end Planten

------------------------------------------------------------
-- Small Replies
------------------------------------------------------------

namespace Planten

theorem small_rversion :
    (Reply.rversion 131072 "9P2000").Small := by
  simp only [Reply.Small, Reply.body, List.length_append,
    length_u32le, length_encodeString]
  decide

/- A small reply is sent under the lock without a panic. -/
theorem poisonOnPanic_sendResponse
    {reply : Reply}
    (hSmall : reply.Small)
    (tag : UInt16)
    (s : Session) :
    poisonOnPanic
        (sendResponse reply.msgType tag reply.body s) =
      sendResponse reply.msgType tag reply.body s := by
  rw [run_sendResponse, hSmall.frame tag]
  rfl

/- A short error text is sent as it stands. -/
theorem run_sendError_of_short
    {message : String}
    (hShort : message.utf8ByteSize < 2 ^ 19)
    (tag : UInt16)
    (s : Session) :
    sendError tag message s =
      .ok ()
        { s with
          sent :=
            s.sent ++
              frameBytes RERROR tag
                (encodeString message) } := by
  rw [run_sendError, (small_rerror hShort).frame tag]
  rfl

/- The text of an unreadable stat record is short. -/
theorem short_wstatFormat
    {record : Bytes}
    {err : IoError}
    (hRecord : decodeStat.run record = .error err) :
    ("invalid stat format: " ++ err.message).utf8ByteSize ≤
      64 := by
  rcases failsIn_decodeStat record err hRecord with
    rfl | rfl
  · decide
  · decide

end Planten

------------------------------------------------------------
-- Outcomes of the Parts of a Handler
------------------------------------------------------------

namespace Planten

variable {hasher : Hasher} {clock : Clock}
variable {tag : UInt16} {s : Session}

/- A panic outside the lock changes nothing. -/
theorem outcome_panicked
    {req : Request}
    {cause : Panic}
    (hHazard : Hazard hasher clock tag s req cause false) :
    Outcome hasher clock tag s (.ok req)
      (.error (.panic cause) s) := by
  have hPanic := Outcome.panicked hHazard
  rwa [Bool.or_false] at hPanic

/- A panic under the lock poisons it. -/
theorem outcome_poisons
    {req : Request}
    {cause : Panic}
    (hHazard : Hazard hasher clock tag s req cause true) :
    Outcome hasher clock tag s (.ok req)
      (.error (.panic cause) { s with poisoned := true }) := by
  have hPanic := Outcome.panicked hHazard
  rwa [Bool.or_true] at hPanic

/- A poisoned lock panics and stays poisoned. -/
theorem outcome_poisoned
    (hPoisoned : s.poisoned = true)
    (req : Request) :
    Outcome hasher clock tag s (.ok req)
      (.error (.panic .poisonedLock) s) :=
  outcome_panicked (.poisonedLock hPoisoned)

/- A refusal with a small text is answered. -/
theorem outcome_refused
    {req : Request}
    {message : String}
    (hRefusal :
      Refusal hasher s.ramfs s.fids req message)
    (hShort : message.utf8ByteSize < 2 ^ 19) :
    Outcome hasher clock tag s (.ok req)
      (sendError tag message s) := by
  have hFrame := (small_rerror hShort).frame tag
  rw [run_sendError, hFrame]
  exact Outcome.served (.refused hRefusal) hFrame

/- A refusal that has been answered. -/
theorem outcome_answered
    {req : Request}
    {message : String}
    (hRefusal :
      Refusal hasher s.ramfs s.fids req message)
    (hShort : message.utf8ByteSize < 2 ^ 19) :
    Outcome hasher clock tag s (.ok req)
      (.ok ()
        { s with
          sent :=
            s.sent ++
              frameBytes RERROR tag
                (encodeString message) }) := by
  rw [← run_sendError_of_short hShort]
  exact outcome_refused hRefusal hShort

/- A small reply to an effect is sent. -/
theorem outcome_served
    {req : Request}
    {fs : RamFs}
    {fids : FidTable}
    (reply : Reply)
    (hEffect :
      Effect hasher clock s.ramfs s.fids req fs fids reply)
    (hSmall : reply.Small) :
    Outcome hasher clock tag s (.ok req)
      (sendResponse reply.msgType tag reply.body
        ⟨fs, s.poisoned, fids, s.sent⟩) := by
  have hFrame := hSmall.frame tag
  rw [run_sendResponse, hFrame]
  exact Outcome.served hEffect hFrame

/- The same under the lock. -/
theorem outcome_served_locked
    {req : Request}
    {fs : RamFs}
    {fids : FidTable}
    (reply : Reply)
    (hEffect :
      Effect hasher clock s.ramfs s.fids req fs fids reply)
    (hSmall : reply.Small) :
    Outcome hasher clock tag s (.ok req)
      (poisonOnPanic
        (sendResponse reply.msgType tag reply.body
          ⟨fs, s.poisoned, fids, s.sent⟩)) := by
  rw [poisonOnPanic_sendResponse hSmall]
  exact outcome_served reply hEffect hSmall

theorem outcome_refused_locked
    {req : Request}
    {message : String}
    (hRefusal :
      Refusal hasher s.ramfs s.fids req message)
    (hShort : message.utf8ByteSize < 2 ^ 19) :
    Outcome hasher clock tag s (.ok req)
      (poisonOnPanic (sendError tag message s)) :=
  outcome_served_locked (.rerror message)
    (.refused hRefusal) (small_rerror hShort)

end Planten

------------------------------------------------------------
-- Outcomes of the Handlers
------------------------------------------------------------

namespace Planten

variable (hasher : Hasher) (clock : Clock)
variable (tag : UInt16) (body : Bytes) (s : Session)

theorem handleVersion_outcome :
    Outcome hasher clock tag s
      ((versionFields.run body).map
        (fun r => Request.tversion r.1.1 r.1.2))
      (handleVersion tag body s) := by
  rw [handleVersion, run_bind, run_parse]
  cases versionFields.run body with
  | error err =>
      exact .malformed err
  | ok r =>
      exact outcome_served (.rversion 131072 "9P2000")
        .version small_rversion

theorem handleAuth_outcome :
    Outcome hasher clock tag s (.ok .tauth)
      (handleAuth tag body s) :=
  outcome_served (.rauth ⟨0, 0, 0⟩) .auth
    (small_of_fixed (by decide))

theorem handleFlush_outcome :
    Outcome hasher clock tag s (.ok .tflush)
      (handleFlush tag body s) :=
  outcome_served .rflush .flush
    (small_of_fixed (by decide))

theorem handleClunk_outcome :
    Outcome hasher clock tag s
      ((readU32.run body).map
        (fun r => Request.tclunk r.1))
      (handleClunk tag body s) := by
  rw [handleClunk, run_bind, run_parse]
  cases readU32.run body with
  | error err =>
      exact .malformed err
  | ok r =>
      exact outcome_served .rclunk .clunk
        (small_of_fixed (by decide))

theorem handleClone_outcome :
    Outcome hasher clock tag s
      ((cloneFields.run body).map
        (fun r => Request.tclone r.1.1 r.1.2))
      (handleClone tag body s) := by
  rw [handleClone, run_bind, run_parse]
  cases cloneFields.run body with
  | error err =>
      exact .malformed err
  | ok r =>
      rcases r with ⟨⟨fid, newfid⟩, rest⟩
      simp only [run_bind, run_get]
      cases hFid : s.fids.lookup fid with
      | none =>
          exact outcome_refused (.unknownFid rfl hFid)
            (by decide)
      | some state =>
          exact outcome_served .rclone
            (.clone hFid) (small_of_fixed (by decide))

theorem handleAttach_outcome :
    Outcome hasher clock tag s
      ((attachFields.run body).map
        (fun r =>
          Request.tattach r.1.1 r.1.2.1 r.1.2.2.1
            r.1.2.2.2))
      (handleAttach hasher tag body s) := by
  rw [handleAttach, run_bind, run_parse]
  cases attachFields.run body with
  | error err =>
      exact .malformed err
  | ok r =>
      rcases r with ⟨⟨fid, afid, uname, aname⟩, rest⟩
      simp only [run_bind]
      cases hLock : s.poisoned with
      | true =>
          rw [run_withLock_poisoned _ hLock]
          exact outcome_poisoned hLock _
      | false =>
          have hRoot :
              s.ramfs.stat "/" = some s.ramfs.root := by
            rw [RamFs.stat, components_slash]
            rfl
          rw [run_withLock _ hLock]
          simp only [run_bind, run_get, hRoot, run_pure]
          exact outcome_served
            (.rattach (qidFromInode hasher "/" s.ramfs.root))
            .attach (small_of_fixed (by
              simp [Reply.body]))

theorem handleOpen_outcome :
    Outcome hasher clock tag s
      ((openFields.run body).map
        (fun r => Request.topen r.1.1 r.1.2))
      (handleOpen hasher tag body s) := by
  rw [handleOpen, run_bind, run_parse]
  cases openFields.run body with
  | error err =>
      exact .malformed err
  | ok r =>
      rcases r with ⟨⟨fid, mode⟩, rest⟩
      simp only [run_bind, run_get]
      cases hFid : s.fids.lookup fid with
      | none =>
          exact outcome_refused (.unknownFid rfl hFid)
            (by decide)
      | some state =>
          simp only [run_bind]
          cases hLock : s.poisoned with
          | true =>
              rw [run_withLock_poisoned _ hLock]
              exact outcome_poisoned hLock _
          | false =>
              rw [run_withLock _ hLock]
              simp only [run_bind, run_get, run_pure]
              cases hStat : s.ramfs.stat state.path with
              | none =>
                  exact outcome_refused
                    (.openMissing hFid hStat) (by decide)
              | some inode =>
                  exact outcome_served
                    (.ropen
                      (qidFromInode hasher state.path
                        inode) 0)
                    (.opened hFid hStat)
                    (small_of_fixed (by
                      simp [Reply.body]))

theorem handleRemove_outcome :
    Outcome hasher clock tag s
      ((readU32.run body).map
        (fun r => Request.tremove r.1))
      (handleRemove tag body s) := by
  rw [handleRemove, run_bind, run_parse]
  cases readU32.run body with
  | error err =>
      exact .malformed err
  | ok r =>
      rcases r with ⟨fid, rest⟩
      simp only [run_bind, run_get]
      cases hFid : s.fids.lookup fid with
      | none =>
          exact outcome_refused (.unknownFid rfl hFid)
            (by decide)
      | some state =>
          simp only [run_bind]
          cases hLock : s.poisoned with
          | true =>
              rw [run_withLock_poisoned _ hLock]
              exact outcome_poisoned hLock _
          | false =>
              rw [run_withLock _ hLock, run_onGuard]
              cases hOp : s.ramfs.remove state.path with
              | error cause =>
                  have hView := s.ramfs.view_remove state.path
                  rw [hOp] at hView
                  cases hView
              | ok r =>
                  rcases r with ⟨fs, success⟩
                  cases success with
                  | none =>
                      exact outcome_served
                        (.rerror "remove failed")
                        (.removeFailed hFid hOp)
                        (small_rerror (by decide))
                  | some u =>
                      exact outcome_served
                        .rremove
                        (.remove hFid hOp)
                        (small_of_fixed (by decide))

theorem handleWrite_outcome :
    Outcome hasher clock tag s
      ((writeFields.run body).map
        (fun r => Request.twrite r.1.1 r.1.2.1 r.1.2.2))
      (handleWrite clock tag body s) := by
  rw [handleWrite, run_bind, run_parse]
  cases writeFields.run body with
  | error err =>
      exact .malformed err
  | ok r =>
      rcases r with ⟨⟨fid, offset, buffer⟩, rest⟩
      simp only [run_bind, run_get]
      cases hFid : s.fids.lookup fid with
      | none =>
          exact outcome_refused (.unknownFid rfl hFid)
            (by decide)
      | some state =>
          simp only
          cases hMode : state.openMode with
          | none =>
              exact outcome_refused
                (.writeNotOpen hFid hMode) (by decide)
          | some mode =>
              simp only
              cases hAllowed : modeAllowsWrite mode with
              | false =>
                  exact outcome_refused
                    (.writeMode hFid hMode hAllowed)
                    (by decide)
              | true =>
                  simp only [not_true_eq_false, if_false,
                    run_bind]
                  cases hLock : s.poisoned with
                  | true =>
                      rw [run_withLock_poisoned _ hLock]
                      exact outcome_poisoned hLock _
                  | false =>
                      rw [run_withLock _ hLock, run_onGuard]
                      cases hOp :
                          s.ramfs.write state.path offset
                            buffer clock with
                      | error cause =>
                          exact outcome_poisons
                            (.write hFid hMode hAllowed hOp)
                      | ok r =>
                          exact outcome_served
                            (.rwrite _)
                            (.write hFid hMode hAllowed hOp)
                            (small_of_fixed (by
                              simp [Reply.body]))

theorem handleWstat_outcome :
    Outcome hasher clock tag s
      ((readU32.run body).map
        (fun r => Request.twstat r.1 r.2))
      (handleWstat tag body s) := by
  rw [handleWstat, run_bind, run_parse]
  cases readU32.run body with
  | error err =>
      exact .malformed err
  | ok r =>
      rcases r with ⟨fid, record⟩
      simp only [run_bind, run_get]
      cases hFid : s.fids.lookup fid with
      | none =>
          exact outcome_refused (.unknownFid rfl hFid)
            (by decide)
      | some state =>
          simp only
          cases hRecord : decodeStat.run record with
          | error err =>
              exact outcome_refused
                (.wstatFormat hFid hRecord)
                ((short_wstatFormat hRecord).trans_lt
                  (by decide))
          | ok r =>
              rcases r with ⟨stat, rest⟩
              simp only
              cases hLock : s.poisoned with
              | true =>
                  rw [run_withLock_poisoned _ hLock]
                  exact outcome_poisoned hLock _
              | false =>
                  rw [run_withLock _ hLock, run_bind,
                    run_onGuard]
                  cases hOp :
                      s.ramfs.wstatFromStat state.path
                        stat with
                  | error cause =>
                      exact outcome_poisons
                        (.wstat hFid hRecord hOp)
                  | ok r =>
                      rcases r with ⟨fs, done⟩
                      cases done with
                      | none =>
                          have hSame :=
                            RamFs.wstatFromStat_eq_none hOp
                          subst hSame
                          exact outcome_refused_locked
                            (.wstatFailed hFid hRecord hOp)
                            (by decide)
                      | some u =>
                          exact outcome_served_locked
                            .rwstat
                            (.wstat hFid hRecord hOp)
                            (small_of_fixed (by decide))

theorem handleStat_outcome :
    Outcome hasher clock tag s
      ((readU32.run body).map
        (fun r => Request.tstat r.1))
      (handleStat hasher tag body s) := by
  rw [handleStat, run_bind, run_parse]
  cases readU32.run body with
  | error err =>
      exact .malformed err
  | ok r =>
      rcases r with ⟨fid, rest⟩
      simp only [run_bind, run_get]
      cases hFid : s.fids.lookup fid with
      | none =>
          exact outcome_refused (.unknownFid rfl hFid)
            (by decide)
      | some state =>
          simp only
          cases hLock : s.poisoned with
          | true =>
              rw [run_withLock_poisoned _ hLock]
              exact outcome_poisoned hLock _
          | false =>
              rw [run_withLock _ hLock, run_bind, run_get]
              simp only
              cases hStat : s.ramfs.stat state.path with
              | none =>
                  exact outcome_refused_locked
                    (.statMissing hFid hStat) (by decide)
              | some inode =>
                  let reply :=
                    Reply.rstat
                      (inodeToStat hasher state.path inode)
                  change Outcome hasher clock tag s
                    (.ok (.tstat fid))
                    (poisonOnPanic
                      (sendResponse reply.msgType tag
                        reply.body s))
                  rw [run_sendResponse]
                  cases hFrame : reply.frame tag with
                  | ok frame =>
                      exact .served (.stat hFid hStat) hFrame
                  | error cause =>
                      exact outcome_poisons
                        (.statFrame hFid hStat hFrame)

theorem short_readData
    {hasher : Hasher}
    {fs : RamFs}
    {path message : String}
    (hData : readData hasher fs path = .error message) :
    message.utf8ByteSize ≤ 64 := by
  unfold readData at hData
  split at hData
  · split at hData
    · cases hData
    · split at hData
      · cases hData
      · cases hData
        decide
  · cases hData
    decide

/- The end of a read, after its data is collected. -/
theorem outcome_readWindow
    {hasher : Hasher}
    {clock : Clock}
    {tag : UInt16}
    {s : Session}
    {fid : UInt32}
    {offset : UInt64}
    {count : UInt32}
    {state : FidState}
    {mode : UInt8}
    {data : Bytes}
    (hFid : s.fids.lookup fid = some state)
    (hMode : state.openMode = some mode)
    (hAllowed : modeAllowsRead mode = true)
    (hData :
      readData hasher s.ramfs state.path = .ok data) :
    Outcome hasher clock tag s (.ok (.tread fid offset count))
      ((match readWindow .dev data offset count with
        | .error cause => throw (.panic cause)
        | .ok chunk =>
            sendResponse RREAD tag
              (u32le (UInt32.ofNat chunk.length) ++
                chunk) : Handler Unit) s) := by
  cases hWindow : readWindow .dev data offset count with
  | error cause =>
      exact outcome_panicked
        (.readWindow hFid hMode hAllowed hData hWindow)
  | ok chunk =>
      change Outcome hasher clock tag s _
        (sendResponse (Reply.rread chunk).msgType tag
          (Reply.rread chunk).body s)
      rw [run_sendResponse]
      cases hFrame : (Reply.rread chunk).frame tag with
      | error cause =>
          exact outcome_panicked
            (.readFrame hFid hMode hAllowed hData hWindow
              hFrame)
      | ok frame =>
          exact .served
            (.read hFid hMode hAllowed hData hWindow) hFrame

theorem handleRead_outcome :
    Outcome hasher clock tag s
      ((readFields.run body).map
        (fun r => Request.tread r.1.1 r.1.2.1 r.1.2.2))
      (handleRead hasher tag body s) := by
  rw [handleRead, run_bind, run_parse]
  cases readFields.run body with
  | error err =>
      exact .malformed err
  | ok r =>
      rcases r with ⟨⟨fid, offset, count⟩, rest⟩
      simp only [run_bind, run_get]
      cases hFid : s.fids.lookup fid with
      | none =>
          exact outcome_refused (.unknownFid rfl hFid)
            (by decide)
      | some state =>
          simp only
          cases hMode : state.openMode with
          | none =>
              exact outcome_refused
                (.readNotOpen hFid hMode) (by decide)
          | some mode =>
              simp only
              cases hAllowed : modeAllowsRead mode with
              | false =>
                  exact outcome_refused
                    (.readMode hFid hMode hAllowed)
                    (by decide)
              | true =>
                  simp only [not_true_eq_false, if_false,
                    run_bind]
                  cases hLock : s.poisoned with
                  | true =>
                      rw [run_withLock_poisoned _ hLock]
                      exact outcome_poisoned hLock _
                  | false =>
                      rw [run_withLock _ hLock, run_bind,
                        run_get]
                      simp only
                      cases hData :
                          readData hasher s.ramfs
                            state.path with
                      | error message =>
                          have hShort :=
                            (short_readData hData).trans_lt
                              (by decide : 64 < 2 ^ 19)
                          simp only [run_bind,
                            run_sendError_of_short hShort]
                          exact outcome_answered
                            (.readData hFid hMode hAllowed
                              hData) hShort
                      | ok data =>
                          exact outcome_readWindow hFid
                            hMode hAllowed hData

theorem handleCreate_outcome :
    Outcome hasher clock tag s
      ((createFields.run body).map
        (fun r =>
          Request.tcreate r.1.1 r.1.2.1 r.1.2.2.1
            r.1.2.2.2))
      (handleCreate hasher clock tag body s) := by
  rw [handleCreate, run_bind, run_parse]
  cases createFields.run body with
  | error err =>
      exact .malformed err
  | ok r =>
      rcases r with ⟨⟨fid, name, perm, mode⟩, rest⟩
      simp only [run_bind, run_get]
      cases hFid : s.fids.lookup fid with
      | none =>
          exact outcome_refused (.unknownFid rfl hFid)
            (by decide)
      | some state =>
          simp only
          cases hStep : resolveStep state.path name with
          | none =>
              exact outcome_refused
                (.createPath hFid hStep) (by decide)
          | some newPath =>
              simp only
              cases hLock : s.poisoned with
              | true =>
                  rw [run_withLock_poisoned _ hLock]
                  exact outcome_poisoned hLock _
              | false =>
                  rw [run_withLock _ hLock, run_bind,
                    run_get]
                  simp only
                  cases hStat : s.ramfs.stat newPath with
                  | some inode =>
                      exact outcome_refused_locked
                        (.createExists hFid hStep
                          (by rw [hStat]; rfl))
                        (by decide)
                  | none =>
                      simp only [Option.isSome_none,
                        Bool.false_eq_true, if_false]
                      rw [run_bind, run_onGuard]
                      cases hOp :
                          createNode clock s.ramfs newPath
                            perm with
                      | error cause =>
                          exact outcome_poisons
                            (.create hFid hStep hStat hOp)
                      | ok r =>
                          have hMade :=
                            stat_of_createNode hStat hOp
                          cases hNode :
                              r.1.stat newPath with
                          | none =>
                              rw [hNode] at hMade
                              cases hMade
                          | some inode =>
                              simp only [run_bind, run_get,
                                hNode]
                              exact outcome_served_locked
                                (.rcreate _ 0)
                                (.create hFid hStep hStat
                                  hOp hNode)
                                (small_of_fixed (by
                                  simp [Reply.body]))

/- The text of a failed walk holds one name. -/
theorem short_walkNames
    {hasher : Hasher}
    {fs : RamFs}
    {n : Nat}
    {cursor : Bytes}
    {path message : String}
    {qids : List Qid}
    (hNames :
      walkNames hasher fs n cursor path qids =
        .ok (.error message)) :
    message.utf8ByteSize ≤ 65570 := by
  induction n generalizing cursor path qids with
  | zero =>
      cases hNames
  | succ n ih =>
      rw [walkNames, bind_eq_ok_iff] at hNames
      rcases hNames with ⟨⟨name, rest⟩, hName, hNames⟩
      have hFits := yields_text _ cursor name rest hName
      simp only at hNames
      split at hNames
      · split at hNames
        · exact ih hNames
        · cases hNames
          rw [String.utf8ByteSize_append,
            String.utf8ByteSize_append]
          have hBefore :
              "walk failed: component '".utf8ByteSize = 24 :=
            rfl
          have hAfter : "' not found".utf8ByteSize = 11 := rfl
          omega
      · cases hNames
        rw [String.utf8ByteSize_append,
          String.utf8ByteSize_append]
        have hBefore :
            "walk failed: invalid component '".utf8ByteSize =
              32 := rfl
        have hAfter : "'".utf8ByteSize = 1 := rfl
        omega

/- A walk that succeeds reports one qid a name. -/
theorem length_walkNames
    {hasher : Hasher}
    {fs : RamFs}
    {n : Nat}
    {cursor : Bytes}
    {path path' : String}
    {qids qids' : List Qid}
    (hNames :
      walkNames hasher fs n cursor path qids =
        .ok (.ok (path', qids'))) :
    qids'.length = qids.length + n := by
  induction n generalizing cursor path qids with
  | zero =>
      cases hNames
      rfl
  | succ n ih =>
      rw [walkNames, bind_eq_ok_iff] at hNames
      rcases hNames with ⟨⟨name, rest⟩, hName, hNames⟩
      simp only at hNames
      split at hNames
      · split at hNames
        · rw [ih hNames, List.length_append,
            List.length_singleton]
          omega
        · cases hNames
      · cases hNames

theorem short_walkTarget
    {hasher : Hasher}
    {fs : RamFs}
    {path message : String}
    {qids : List Qid}
    (hTarget :
      walkTarget hasher fs path qids = .error message) :
    message.utf8ByteSize ≤ 64 := by
  unfold walkTarget at hTarget
  split at hTarget
  · cases hTarget
  · split at hTarget
    · cases hTarget
    · cases hTarget
      decide

/- Under an unpoisoned lock the walk has a state to start in. -/
theorem run_walkBase
    {fid : UInt32}
    (hUnpoisoned : s.poisoned = false) :
    walkBase hasher fid s =
      .ok (walkBaseState hasher s.ramfs s.fids fid) s := by
  rw [walkBase, walkBaseState, run_bind, run_get]
  simp only
  cases hFid : s.fids.lookup fid with
  | some state =>
      rfl
  | none =>
      have hRoot :
          s.ramfs.stat "/" = some s.ramfs.root := by
        rw [RamFs.stat, components_slash]
        rfl
      simp only
      rw [run_withLock _ hUnpoisoned, run_bind, run_get]
      simp only [hRoot]
      rfl

/- Under a poisoned lock a walk panics, in its first lock. -/
theorem run_walk_poisoned
    {β : Type}
    (fid : UInt32)
    (nwname : UInt16)
    (cursor : Bytes)
    (rest : Option (String × List Qid × Qid) → Handler β)
    (hPoisoned : s.poisoned = true) :
    (walkBase hasher fid >>= fun base =>
        walkSteps hasher tag nwname cursor base.path >>=
          rest) s =
      .error (.panic .poisonedLock) s := by
  rw [run_bind, walkBase, run_bind, run_get]
  simp only
  cases hFid : s.fids.lookup fid with
  | some state =>
      simp only [run_pure, run_bind]
      rw [walkSteps, run_withLock_poisoned _ hPoisoned]
  | none =>
      simp only
      rw [run_withLock_poisoned _ hPoisoned]

theorem handleWalk_outcome :
    Outcome hasher clock tag s
      ((walkFields.run body).map
        (fun r =>
          Request.twalk r.1.1 r.1.2.1 r.1.2.2 r.2))
      (handleWalk hasher tag body s) := by
  rw [handleWalk, run_bind, run_parse]
  cases walkFields.run body with
  | error err =>
      exact .malformed err
  | ok r =>
      rcases r with ⟨⟨fid, newfid, nwname⟩, cursor⟩
      simp only
      cases hLock : s.poisoned with
      | true =>
          rw [run_walk_poisoned hasher tag s fid nwname
            cursor _ hLock]
          exact outcome_poisoned hLock _
      | false =>
          rw [run_bind, run_walkBase hasher s hLock]
          simp only
          rw [run_bind, walkSteps, run_withLock _ hLock,
            run_bind, run_get]
          simp only
          cases hNames :
              walkNames hasher s.ramfs nwname.toNat cursor
                (walkBaseState hasher s.ramfs s.fids
                  fid).path [] with
          | error err =>
              exact .badName hNames
          | ok found =>
              cases found with
              | error message =>
                  have hShort :=
                    (short_walkNames hNames).trans_lt
                      (by decide : 65570 < 2 ^ 19)
                  simp only [run_bind,
                    run_sendError_of_short hShort]
                  exact outcome_answered
                    (.walkName hNames) hShort
              | ok r =>
                  rcases r with ⟨path, qids⟩
                  simp only
                  cases hTarget :
                      walkTarget hasher s.ramfs path
                        qids with
                  | error message =>
                      have hShort :=
                        (short_walkTarget hTarget).trans_lt
                          (by decide : 64 < 2 ^ 19)
                      simp only [run_bind,
                        run_sendError_of_short hShort]
                      exact outcome_answered
                        (.walkTarget hNames hTarget) hShort
                  | ok newQid =>
                      have hCount := length_walkNames hNames
                      have hLt := nwname.toNat_lt
                      rw [List.length_nil] at hCount
                      exact outcome_served
                        (.rwalk qids)
                        (.walk hNames hTarget)
                        (small_rwalk (by omega))

/- Both sides of a dispatch test take the same branch. -/
theorem outcome_ite
    {p : Prop}
    [Decidable p]
    {decoded decoded' : Except IoError Request}
    {handler handler' : Handler Unit}
    (hThen :
      Outcome hasher clock tag s decoded (handler s))
    (hElse :
      Outcome hasher clock tag s decoded' (handler' s)) :
    Outcome hasher clock tag s
      (if p then decoded else decoded')
      ((if p then handler else handler') s) := by
  split
  · exact hThen
  · exact hElse

/-
  Every frame is served, answered with an error, unreadable,
  or runs into one of the hazards.
-/
theorem handleMessage_outcome
    (msgType : UInt8) :
    Outcome hasher clock tag s
      (Request.decode msgType body)
      (handleMessage hasher clock msgType tag body s) := by
  unfold Request.decode handleMessage
  refine outcome_ite hasher clock tag s
    (handleVersion_outcome hasher clock tag body s) ?_
  refine outcome_ite hasher clock tag s
    (handleAttach_outcome hasher clock tag body s) ?_
  refine outcome_ite hasher clock tag s
    (handleWalk_outcome hasher clock tag body s) ?_
  refine outcome_ite hasher clock tag s
    (handleOpen_outcome hasher clock tag body s) ?_
  refine outcome_ite hasher clock tag s
    (handleRead_outcome hasher clock tag body s) ?_
  refine outcome_ite hasher clock tag s
    (handleWrite_outcome hasher clock tag body s) ?_
  refine outcome_ite hasher clock tag s
    (handleWstat_outcome hasher clock tag body s) ?_
  refine outcome_ite hasher clock tag s
    (handleFlush_outcome hasher clock tag body s) ?_
  refine outcome_ite hasher clock tag s
    (handleRemove_outcome hasher clock tag body s) ?_
  refine outcome_ite hasher clock tag s
    (handleClunk_outcome hasher clock tag body s) ?_
  refine outcome_ite hasher clock tag s
    (handleStat_outcome hasher clock tag body s) ?_
  refine outcome_ite hasher clock tag s
    (handleClone_outcome hasher clock tag body s) ?_
  refine outcome_ite hasher clock tag s
    (handleCreate_outcome hasher clock tag body s) ?_
  refine outcome_ite hasher clock tag s
    (handleAuth_outcome hasher clock tag body s) ?_
  exact outcome_refused .unsupported (by decide)

end Planten
