import Planten.Library.Guarded
import Planten.PseudoFs.Survival

/-
  The process and the service file system, with all their
  connections.

  `start_server` runs a thread for every connection, and
  `run_server` serves one connection after the other in the
  thread that accepts them.  The connections share the file
  system, which no request changes, and its lock.  A panic
  poisons the lock while a request is handled; the lock is
  free again when the reply is framed and sent.

  Key definitions include:
    * `Frame`
    * `PseudoRequest.locks`
    * `ProcSrv.turn`, `ProcSrv.guarded`
    * `ProcSrv.startServer`, `ProcSrv.runServer`
    * `ProcSrv.Poisons`

  Key theorems include:
    * `ProcSrv.handle_poisoned`
    * `ProcSrv.cut_off_by_the_lock`
    * `ProcSrv.serves_one_by_one`
-/

------------------------------------------------------------
-- Connections behind a Lock
------------------------------------------------------------

namespace Planten

/- A frame, and what the calls of its handler find. -/
structure Frame (H : Type) where
  msgType : UInt8
  tag : UInt16
  body : Bytes
  hosts : Nat → Host H

namespace ProcSrv

variable {H : Type} (fs : FsServer H)

/- The handler of a request gets as far as the lock. -/
def locks : PseudoRequest → Bool
| .twalk _ _ _ => true
| .topen _ mode => mode.isSome
| .tread _ _ _ => true
| .tstat _ => true
| _ => false

/-
  The panic of a turn comes out of the handler of a request
  that locks.  The handler keeps the lock to its end, so it
  is held then.
-/
def panicsLocked
    (access : Access H)
    (fids : FidTable)
    (frame : Frame H) : Bool :=
  match PseudoRequest.decode frame.msgType frame.body with
  | .error _ => false
  | .ok req => locks req && !(handle fs access fids req).isOk

/-
  A turn of `handle_client`, on a frame or on the end of its
  stream.  What cannot be read as a frame is an end too.
-/
def turn
    (poisoned : Bool)
    (fids : FidTable) :
    Option (Frame H) → Fate FidTable Bytes
| none => .ends
| some frame =>
    let access : Access H := ⟨poisoned, frame.hosts⟩
    match serve (handle fs access fids) frame.msgType
        frame.tag frame.body with
    | .ok (fids, bytes) => .goesOn fids bytes
    | .error (.io _) => .ends
    | .error (.panic _) =>
        .panics (panicsLocked fs access fids frame)

/- The turn gets as far as the lock. -/
def turnLocks : Option (Frame H) → Bool
| none => false
| some frame =>
    match PseudoRequest.decode frame.msgType frame.body with
    | .error _ => false
    | .ok req => locks req

variable {fs}

/-
  Under a poisoned lock the requests that lock panic, and
  the others are handled as ever.
-/
theorem handle_poisoned
    (hosts : Nat → Host H)
    (fids : FidTable)
    (req : PseudoRequest) :
    handle fs ⟨true, hosts⟩ fids req =
      if locks req then
        .error .poisonedLock
      else
        handle fs ⟨false, hosts⟩ fids req := by
  cases req with
  | topen fid mode =>
      cases mode with
      | none => rfl
      | some mode => rfl
  | _ =>
      rfl

/- Under a poisoned lock a turn that locks panics. -/
theorem turn_locked
    (fids : FidTable)
    {item : Option (Frame H)}
    (hLocks : turnLocks item = true) :
    turn fs true fids item = .panics true := by
  cases item with
  | none =>
      cases hLocks
  | some frame =>
      rw [turnLocks] at hLocks
      rw [turn, serve, panicsLocked]
      cases hDecode :
          PseudoRequest.decode frame.msgType frame.body with
      | error err =>
          rw [hDecode] at hLocks
          cases hLocks
      | ok req =>
          simp only [hDecode] at hLocks
          simp only [handle_poisoned, hLocks, if_true]
          rfl

/- Every other turn is the same under a poisoned lock. -/
theorem turn_unlocked
    (fids : FidTable)
    {item : Option (Frame H)}
    (hFree : turnLocks item = false) :
    turn fs true fids item = turn fs false fids item := by
  cases item with
  | none =>
      rfl
  | some frame =>
      rw [turnLocks] at hFree
      rw [turn, turn, serve, serve, panicsLocked,
        panicsLocked]
      cases hDecode :
          PseudoRequest.decode frame.msgType frame.body with
      | error err =>
          rfl
      | ok req =>
          simp only [hDecode] at hFree
          simp only [handle_poisoned, hFree,
            Bool.false_eq_true, if_false]

variable (fs)

/- A connection, as a worker that takes the lock. -/
def guarded : Guarded FidTable (Option (Frame H)) Bytes where
  turn := turn fs
  locks := fun _ => turnLocks
  locked := fun fids _ => turn_locked fids
  unlocked := fun fids _ => turn_unlocked fids

/-
  `start_server`: a thread for every connection.  Connections
  are counted as they are accepted.
-/
def startServer : Crew Nat FidTable :=
  ⟨false, fun _ => some []⟩

/-
  `run_server`: the connections, in the order in which they
  are accepted, served in one thread.
-/
def runServer
    (streams : List (List (Option (Frame H)))) :
    List (List Bytes) :=
  (guarded fs).serveAll [] false streams

/-
  A request panics while it holds the lock, which was free:
  at a clock before 1970 where a node is found, or at the end
  of a read that overflows.
-/
inductive Poisons
    {fs : FsServer H}
    {k : Nat}
    (hLaw : fs.StatLaw k)
    (hosts : Nat → Host H)
    (fids : FidTable) : PseudoRequest → Prop where
| walkClock
    {fid newfid : UInt32} {names : List String} {i : Nat}
    (hBound : i < names.length)
    (hFinds :
      ∀ j ≤ i,
        FindsStep fs hosts names
          ((loop hLaw).basePath fids fid) j)
    (hBefore : (hosts i).clock k < 0) :
    Poisons hLaw hosts fids (.twalk fid newfid names)
| openClock
    {fid : UInt32} {mode : UInt8} {state : FidState}
    (hFid : fids.lookup fid = some state)
    (hFinds : fs.Finds (hosts 0) state.path)
    (hBefore : (hosts 0).clock k < 0) :
    Poisons hLaw hosts fids (.topen fid (some mode))
| readEnd
    {fid : UInt32} {offset : UInt64} {count : UInt32}
    {state : FidState} {data : Bytes}
    (hFid : fids.lookup fid = some state)
    (hData : fs.read (hosts 0) state.path = some data)
    (hEnd : 2 ^ 64 ≤ offset.toNat + count.toNat) :
    Poisons hLaw hosts fids (.tread fid offset count)
| statClock
    {fid : UInt32} {state : FidState}
    (hFid : fids.lookup fid = some state)
    (hFinds : fs.Finds (hosts 0) state.path)
    (hBefore : (hosts 0).clock k < 0) :
    Poisons hLaw hosts fids (.tstat fid)

variable {fs}

/- What a handler that panics with the lock ran into. -/
theorem poisons_of_handle
    {k : Nat}
    (hLaw : fs.StatLaw k)
    {hosts : Nat → Host H}
    {fids : FidTable}
    {req : PseudoRequest}
    {cause : Panic}
    (hLocks : locks req = true)
    (hHandle :
      handle fs ⟨false, hosts⟩ fids req = .error cause) :
    Poisons hLaw hosts fids req := by
  rw [handle_eq hLaw] at hHandle
  cases req with
  | tversion msize version | tclunk fid | unsupported
  | tattach fid afid uname aname =>
      cases hLocks
  | twalk fid newfid names =>
      cases Loop.hazard_of_handle hHandle with
      | walkLock hPoisoned =>
          cases hPoisoned
      | walkRoot hMakes hBefore =>
          cases hMakes
      | walkClock hBound hFinds hBefore =>
          exact .walkClock hBound hFinds hBefore
  | topen fid mode =>
      cases Loop.hazard_of_handle hHandle with
      | openMode hOpens =>
          cases hLocks
      | openLock hOpens hPoisoned =>
          cases hPoisoned
      | openClock hOpens hFid hFinds hBefore =>
          exact .openClock hFid hFinds hBefore
  | tread fid offset count =>
      rcases Loop.handleRead_eq_error hHandle with
        ⟨_, hPoisoned⟩ | ⟨state, data, hFid, hData, hEnd⟩
      · cases hPoisoned
      · exact .readEnd hFid hData hEnd
  | tstat fid =>
      rcases Loop.handleStat_eq_error hHandle with
        ⟨_, hPoisoned⟩ | ⟨state, hFid, hFinds, hBefore⟩
      · cases hPoisoned
      · exact .statClock hFid hFinds hBefore

/- A turn that poisons a clean lock. -/
theorem poisons_of_turn
    {k : Nat}
    (hLaw : fs.StatLaw k)
    {fids : FidTable}
    {item : Option (Frame H)}
    (hTurn : turn fs false fids item = .panics true) :
    ∃ frame req,
      item = some frame ∧
        PseudoRequest.decode frame.msgType frame.body =
          .ok req ∧
        Poisons hLaw frame.hosts fids req := by
  cases item with
  | none =>
      cases hTurn
  | some frame =>
      rw [turn] at hTurn
      generalize serve _ _ _ _ = result at hTurn
      cases result with
      | ok answer =>
          cases hTurn
      | error fault =>
          cases fault with
          | io err =>
              cases hTurn
          | panic cause =>
              have hHeld := Fate.panics.inj hTurn
              rw [panicsLocked] at hHeld
              cases hDecode :
                  PseudoRequest.decode frame.msgType
                    frame.body with
              | error err =>
                  rw [hDecode] at hHeld
                  cases hHeld
              | ok req =>
                  simp only [hDecode, Bool.and_eq_true,
                    Bool.not_eq_true'] at hHeld
                  refine ⟨frame, req, rfl, hDecode, ?_⟩
                  cases hHandle :
                      handle fs ⟨false, frame.hosts⟩ fids
                        req with
                  | ok answer =>
                      rw [hHandle] at hHeld
                      cases hHeld.2
                  | error cause' =>
                      exact poisons_of_handle hLaw hHeld.1
                        hHandle

/-
  However the threads of `start_server` are interleaved, what
  a connection is sent is what it would be sent alone, up to
  the first request that takes a lock which another
  connection has poisoned.  What poisons it is a request that
  panics while it holds the lock, at a clock before 1970 or
  at the end of a read.
-/
theorem cut_off_by_the_lock
    {k : Nat}
    (hLaw : fs.StatLaw k)
    (events : List (Nat × Option (Frame H)))
    (conn : Nat) :
    startServer.Outcome (guarded fs) conn events ∧
      ∀ before other fids item,
        startServer.Culprit (guarded fs) before other fids
            item →
          ∃ frame req,
            item = some frame ∧
              PseudoRequest.decode frame.msgType
                frame.body = .ok req ∧
              Poisons hLaw frame.hosts fids req := by
  refine ⟨Crew.outcome (guarded fs) rfl conn events, ?_⟩
  intro before other fids item hCulprit
  exact poisons_of_turn hLaw hCulprit.panics

/- A frame whose handler finds a host at rest. -/
def idleFrame
    {H : Type}
    (reading : H)
    (msgType : UInt8)
    (body : Bytes) : Option (Frame H) :=
  some ⟨msgType, 0, body, (idleAccess reading).hosts⟩

/- One of two clients reads past the end of all offsets. -/
def clash : List (Nat × Option (Frame SrvRoot)) :=
  let host : SrvRoot := ⟨some [], fun _ => none⟩
  [(0, idleFrame host TATTACH (encodeAttachBody 0 none "" "")),
    (1, idleFrame host TATTACH (encodeAttachBody 0 none "" "")),
    (0, idleFrame host TREAD
      (encodeReadBody 0 0xffffffffffffffff 1)),
    (1, idleFrame host TSTAT (encodeStatBody 0))]

theorem cut_off_by_the_lock_of_clash :
    startServer.Outcome (guarded SrvFs.fs) 1 clash ∧
      ∀ before other fids item,
        startServer.Culprit (guarded SrvFs.fs) before other
            fids item →
          ∃ frame req,
            item = some frame ∧
              PseudoRequest.decode frame.msgType
                frame.body = .ok req ∧
              Poisons SrvFs.statLaw frame.hosts fids req :=
  cut_off_by_the_lock SrvFs.statLaw clash 1

/- The other client gets the first of its two replies. -/
example :
    (startServer.outputs (guarded SrvFs.fs) 1 clash).length =
        1 ∧
      ((guarded SrvFs.fs).aloneOutputs (some [])
        (Crew.itemsOf 1 clash)).length = 2 := by
  decide +kernel

/-
  The connections that `run_server` serves are those that end
  without a panic, and the next one.  Each is sent what it
  would be sent alone, and so what the threads of
  `start_server` send it in every order of the same requests
  that leaves the lock clean.
-/
theorem serves_one_by_one
    (fs : FsServer H)
    (streams : List (List (Option (Frame H)))) :
    runServer fs streams =
        (streams.take
          ((streams.takeWhile
            ((guarded fs).quits [])).length + 1)).map
          ((guarded fs).aloneOutputs (some [])) ∧
      ∀ events : List (Nat × Option (Frame H)),
        (∀ conn,
          Crew.itemsOf conn events = streams.getD conn []) →
        (Run.final (Crew.step (guarded fs)) startServer
          events).poisoned = false →
        ∀ conn sent,
          (runServer fs streams)[conn]? = some sent →
            startServer.outputs (guarded fs) conn events =
              sent := by
  have hAll := Guarded.serveAll_eq (g := guarded fs) [] streams
  refine ⟨hAll, ?_⟩
  intro events hStreams hClean conn sent hSent
  rw [runServer, hAll, List.getElem?_map,
    Option.map_eq_some_iff] at hSent
  rcases hSent with ⟨stream, hStream, rfl⟩
  rw [List.getElem?_take] at hStream
  split at hStream
  · rw [Crew.outputs_of_clean hClean conn, hStreams conn,
      List.getD_eq_getElem?_getD, hStream]
    rfl
  · cases hStream

/- Two clients attach, and the first one goes. -/
def twoClients : List (List (Option (Frame SrvRoot))) :=
  let host : SrvRoot := ⟨some [], fun _ => none⟩
  [[idleFrame host TATTACH (encodeAttachBody 0 none "" ""),
      none],
    [idleFrame host TATTACH
      (encodeAttachBody 0 none "" "")]]

/- The second client attaches before the first one. -/
def secondFirst : List (Nat × Option (Frame SrvRoot)) :=
  let host : SrvRoot := ⟨some [], fun _ => none⟩
  [(1, idleFrame host TATTACH (encodeAttachBody 0 none "" "")),
    (0, idleFrame host TATTACH (encodeAttachBody 0 none "" "")),
    (0, none)]

/- The second client gets the same from its own thread. -/
theorem serves_one_by_one_of_twoClients :
    ∃ sent,
      (runServer SrvFs.fs twoClients)[1]? = some sent ∧
        startServer.outputs (guarded SrvFs.fs) 1
          secondFirst = sent := by
  have hItems (conn : Nat) :
      Crew.itemsOf conn secondFirst =
        twoClients.getD conn [] := by
    rcases conn with _ | _ | conn
    · rfl
    · rfl
    · rfl
  have hSent :
      (runServer SrvFs.fs twoClients)[1]? =
        some ((guarded SrvFs.fs).aloneOutputs (some [])
          (twoClients.getD 1 [])) := by
    decide +kernel
  exact ⟨_, hSent,
    (serves_one_by_one SrvFs.fs twoClients).2 secondFirst
      hItems (by decide +kernel) 1 _ hSent⟩

end ProcSrv

end Planten
