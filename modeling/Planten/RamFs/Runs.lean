import Planten.RamFs.Outcomes
import Planten.Library.Run
import Mathlib.Logic.Function.Basic

/-
  Runs of the server over any number of connections.

  Every connection has a thread of its own.  A handler holds
  the lock in one section that reads or changes the file
  system, and the rest of what it does is local to its
  connection, so the requests of all connections take place
  one after the other, in the order of these sections.  A
  run is such an order.  Whether a reply reaches its client
  makes no difference to the server: a connection that can
  no longer be written to is a request followed by a close.

  Key definitions include:
    * `Server`
    * `Event`
    * `Server.step`
    * `Server.Step`

  Key theorems include:
    * `Server.step_spec`
    * `Server.served_of_safe`
    * `Server.conns_of_step`
    * `Server.change_of_step`
    * `Server.invariant_of_changes`
-/

------------------------------------------------------------
-- Servers
------------------------------------------------------------

namespace Planten

/-
  A running server: the file system with its lock, and the
  fid table of every open connection.
-/
structure Server where
  ramfs : RamFs
  poisoned : Bool
  conns : Nat → Option FidTable

/- A server on a file system, before any connection. -/
def Server.start (fs : RamFs) : Server :=
  ⟨fs, false, fun _ => none⟩

/-
  What happens at a server: a connection opens or ends, or a
  frame arrives on one.  The clock readings of the request
  come with it.
-/
inductive Event where
| accept (conn : Nat)
| close (conn : Nat)
| request (conn : Nat) (msgType : UInt8) (tag : UInt16)
    (body : Bytes) (clock : Clock)

/- The connection an event belongs to. -/
def Event.conn : Event → Nat
| .accept conn => conn
| .close conn => conn
| .request conn _ _ _ _ => conn

namespace Server

variable (hasher : Hasher)

/- The session a frame is handled in. -/
def session
    (srv : Server)
    (fids : FidTable) : Session :=
  ⟨srv.ramfs, srv.poisoned, fids, []⟩

/-
  The server after a handler.  An error and a panic both end
  the connection.
-/
def settle
    (srv : Server)
    (conn : Nat) :
    EStateM.Result Fault Session Unit → Server
| .ok () s =>
    ⟨s.ramfs, s.poisoned,
      Function.update srv.conns conn (some s.fids)⟩
| .error _ s =>
    ⟨s.ramfs, s.poisoned,
      Function.update srv.conns conn none⟩

/- The handler an event starts. -/
def handle
    (srv : Server) :
    Event → Option (EStateM.Result Fault Session Unit)
| .request conn msgType tag body clock =>
    (srv.conns conn).map (fun fids =>
      handleMessage hasher clock msgType tag body
        (srv.session fids))
| _ => none

/- One event.  A frame on a closed connection is lost. -/
def step
    (srv : Server)
    (event : Event) : Server :=
  match event with
  | .accept conn =>
      if (srv.conns conn).isSome then
        srv
      else
        { srv with
          conns := Function.update srv.conns conn (some []) }
  | .close conn =>
      { srv with
        conns := Function.update srv.conns conn none }
  | .request conn _ _ _ _ =>
      (srv.handle hasher event).elim srv (srv.settle conn)

/- The bytes that are sent in answer to an event. -/
def sent
    (srv : Server)
    (event : Event) : Bytes :=
  match srv.handle hasher event with
  | some (.ok () s) => s.sent
  | _ => []

/-
  The type of the reply to an event: the byte of the frame
  behind its size.
-/
def replyType
    (srv : Server)
    (event : Event) : Option UInt8 :=
  (srv.sent hasher event)[4]?

/-
  The event is a request with these fields, on a connection
  with this fid table.
-/
def Asks
    (srv : Server)
    (event : Event)
    (clock : Clock)
    (fids : FidTable)
    (req : Request) : Prop :=
  ∃ conn msgType tag body,
    event = .request conn msgType tag body clock ∧
      srv.conns conn = some fids ∧
      Request.decode msgType body = .ok req

/- An event is one request at most. -/
theorem Asks.unique
    {srv : Server}
    {event : Event}
    {clock clock' : Clock}
    {fids fids' : FidTable}
    {req req' : Request}
    (hAsks : srv.Asks event clock fids req)
    (hAsks' : srv.Asks event clock' fids' req') :
    clock = clock' ∧ fids = fids' ∧ req = req' := by
  rcases hAsks with
    ⟨conn, msgType, tag, body, rfl, hConn, hDecode⟩
  rcases hAsks' with ⟨_, _, _, _, hEq, hConn', hDecode'⟩
  cases hEq
  rw [hConn] at hConn'
  rw [hDecode] at hDecode'
  cases hConn'
  cases hDecode'
  exact ⟨rfl, rfl, rfl⟩

/- A frame is the request it decodes to. -/
theorem Asks.eq_of_decode
    {srv : Server}
    {conn : Nat}
    {msgType : UInt8}
    {tag : UInt16}
    {body : Bytes}
    {clock clock' : Clock}
    {fids' : FidTable}
    {req' : Request}
    (hAsks :
      srv.Asks (.request conn msgType tag body clock)
        clock' fids' req')
    (fids : FidTable)
    (req : Request)
    (hConn : srv.conns conn = some fids)
    (hDecode : Request.decode msgType body = .ok req) :
    clock = clock' ∧ fids = fids' ∧ req = req' :=
  Asks.unique ⟨_, _, _, _, rfl, hConn, hDecode⟩ hAsks

/- The request panics. -/
def Panics
    (srv : Server)
    (event : Event) : Prop :=
  ∃ cause s,
    srv.handle hasher event =
      some (.error (.panic cause) s)

/- A request that panics sends nothing. -/
theorem sent_of_panics
    {srv : Server}
    {event : Event}
    (hPanics : srv.Panics hasher event) :
    srv.sent hasher event = [] := by
  rcases hPanics with ⟨cause, s, hHandle⟩
  rw [sent, hHandle]

end Server

end Planten

------------------------------------------------------------
-- Steps
------------------------------------------------------------

namespace Planten

namespace Server

variable (hasher : Hasher)

/-
  Everything one event can do: with a reply, when a request
  is served, and without one.
-/
inductive Step
    (srv : Server) :
    Event → Option Reply → Server → Prop where
| accepted
    {conn : Nat}
    (hClosed : srv.conns conn = none) :
    Step srv (.accept conn) none
      { srv with
        conns := Function.update srv.conns conn (some []) }
| reopened
    {conn : Nat}
    (hOpen : (srv.conns conn).isSome) :
    Step srv (.accept conn) none srv
| lost
    {conn : Nat} {msgType : UInt8} {tag : UInt16}
    {body : Bytes} {clock : Clock}
    (hClosed : srv.conns conn = none) :
    Step srv (.request conn msgType tag body clock) none srv
| closed
    {conn : Nat} :
    Step srv (.close conn) none
      { srv with
        conns := Function.update srv.conns conn none }
| malformed
    {conn : Nat} {msgType : UInt8} {tag : UInt16}
    {body : Bytes} {clock : Clock} {fids : FidTable}
    {err : IoError}
    (hConn : srv.conns conn = some fids)
    (hDecode : Request.decode msgType body = .error err) :
    Step srv (.request conn msgType tag body clock) none
      { srv with
        conns := Function.update srv.conns conn none }
| badName
    {conn : Nat} {msgType : UInt8} {tag : UInt16}
    {body : Bytes} {clock : Clock} {fids : FidTable}
    {fid newfid : UInt32} {nwname : UInt16}
    {names : Bytes} {err : IoError}
    (hConn : srv.conns conn = some fids)
    (hDecode :
      Request.decode msgType body =
        .ok (.twalk fid newfid nwname names))
    (hNames :
      walkNames hasher srv.ramfs nwname.toNat names
        (walkBaseState hasher srv.ramfs fids fid).path [] =
          .error err) :
    Step srv (.request conn msgType tag body clock) none
      { srv with
        conns := Function.update srv.conns conn none }
| served
    {conn : Nat} {msgType : UInt8} {tag : UInt16}
    {body : Bytes} {clock : Clock} {fids fids' : FidTable}
    {req : Request} {fs : RamFs} {reply : Reply}
    {frame : Bytes}
    (hConn : srv.conns conn = some fids)
    (hDecode : Request.decode msgType body = .ok req)
    (hEffect :
      Effect hasher clock srv.ramfs fids req fs fids'
        reply)
    (hFrame : reply.frame tag = .ok frame)
    (hSent :
      srv.sent hasher
        (.request conn msgType tag body clock) = frame) :
    Step srv (.request conn msgType tag body clock)
      (some reply)
      ⟨fs, srv.poisoned,
        Function.update srv.conns conn (some fids')⟩
| panicked
    {conn : Nat} {msgType : UInt8} {tag : UInt16}
    {body : Bytes} {clock : Clock} {fids : FidTable}
    {req : Request} {cause : Panic} {poisons : Bool}
    (hConn : srv.conns conn = some fids)
    (hDecode : Request.decode msgType body = .ok req)
    (hHazard :
      Hazard hasher clock tag (srv.session fids) req cause
        poisons)
    (hPanics :
      srv.Panics hasher
        (.request conn msgType tag body clock)) :
    Step srv (.request conn msgType tag body clock) none
      ⟨srv.ramfs, srv.poisoned || poisons,
        Function.update srv.conns conn none⟩

variable {hasher}

/- The byte behind the size of a frame is its type. -/
theorem type_of_buildFrame
    {msgType : UInt8}
    {tag : UInt16}
    {body frame : Bytes}
    (hFrame : buildFrame msgType tag body = .ok frame) :
    frame[4]? = some msgType := by
  rw [buildFrame, bind_eq_ok_iff] at hFrame
  rcases hFrame with ⟨size, _, hFrame⟩
  cases hFrame
  rw [List.getElem?_append_right (by simp)]
  simp

theorem handle_of_open
    {srv : Server}
    {conn : Nat}
    {fids : FidTable}
    (hConn : srv.conns conn = some fids)
    (hasher : Hasher)
    (msgType : UInt8)
    (tag : UInt16)
    (body : Bytes)
    (clock : Clock) :
    srv.handle hasher
        (.request conn msgType tag body clock) =
      some (handleMessage hasher clock msgType tag body
        (srv.session fids)) := by
  rw [handle, hConn]
  rfl

/- A request panics when its handler does. -/
theorem panics_of_message
    {hasher : Hasher}
    {srv : Server}
    {conn : Nat}
    {fids : FidTable}
    (hConn : srv.conns conn = some fids)
    {msgType : UInt8}
    {tag : UInt16}
    {body : Bytes}
    {clock : Clock}
    {cause : Panic}
    {s : Session}
    (hMessage :
      handleMessage hasher clock msgType tag body
          (srv.session fids) =
        .error (.panic cause) s) :
    srv.Panics hasher
      (.request conn msgType tag body clock) := by
  refine ⟨cause, s, ?_⟩
  rw [handle_of_open hConn, hMessage]

theorem handle_of_closed
    {srv : Server}
    {conn : Nat}
    (hConn : srv.conns conn = none)
    (hasher : Hasher)
    (msgType : UInt8)
    (tag : UInt16)
    (body : Bytes)
    (clock : Clock) :
    srv.handle hasher
        (.request conn msgType tag body clock) = none := by
  rw [handle, hConn]
  rfl

/- A frame on an open connection takes one of the steps. -/
theorem step_spec_of_open
    {srv : Server}
    {conn : Nat}
    {fids : FidTable}
    (hConn : srv.conns conn = some fids)
    (msgType : UInt8)
    (tag : UInt16)
    (body : Bytes)
    (clock : Clock) :
    ∃ reply,
      Step hasher srv (.request conn msgType tag body clock)
          reply
          (srv.step hasher
            (.request conn msgType tag body clock)) ∧
        srv.replyType hasher
            (.request conn msgType tag body clock) =
          reply.map Reply.msgType := by
  have hHandle :=
    handle_of_open hConn hasher msgType tag body clock
  have hOutcome :=
    handleMessage_outcome hasher clock tag body
      (srv.session fids) msgType
  simp only [step, replyType]
  revert hOutcome hHandle
  generalize hDecode : Request.decode msgType body = decoded
  generalize
    handleMessage hasher clock msgType tag body
      (srv.session fids) = result
  intro hHandle hOutcome
  have hStep :
      (srv.handle hasher
        (.request conn msgType tag body clock)).elim srv
          (srv.settle conn) = srv.settle conn result := by
    rw [hHandle]
    rfl
  rw [hStep]
  cases hOutcome with
  | malformed err =>
      refine ⟨none, .malformed hConn hDecode, ?_⟩
      rw [sent, hHandle]
      rfl
  | badName hNames =>
      refine ⟨none, .badName hConn hDecode hNames, ?_⟩
      rw [sent, hHandle]
      rfl
  | panicked hHazard =>
      refine ⟨none,
        .panicked hConn hDecode hHazard ⟨_, _, hHandle⟩, ?_⟩
      rw [sent, hHandle]
      rfl
  | served hEffect hFrame =>
      rename_i reply frame
      have hSent :
          srv.sent hasher
            (.request conn msgType tag body clock) =
              frame := by
        rw [sent, hHandle]
        rfl
      refine ⟨some reply,
        .served hConn hDecode hEffect hFrame hSent, ?_⟩
      rw [hSent]
      exact type_of_buildFrame hFrame

/- Every event takes one of the steps. -/
theorem step_spec
    (hasher : Hasher)
    (srv : Server)
    (event : Event) :
    ∃ reply,
      Step hasher srv event reply (srv.step hasher event) ∧
        srv.replyType hasher event =
          reply.map Reply.msgType := by
  cases event with
  | accept conn =>
      refine ⟨none, ?_, rfl⟩
      simp only [step]
      split
      · exact .reopened ‹_›
      · rename_i hClosed
        exact .accepted
          (Option.not_isSome_iff_eq_none.mp hClosed)
  | close conn =>
      exact ⟨none, .closed, rfl⟩
  | request conn msgType tag body clock =>
      cases hConn : srv.conns conn with
      | some fids =>
          exact step_spec_of_open hConn msgType tag body
            clock
      | none =>
          have hNone :=
            handle_of_closed hConn hasher msgType tag body
              clock
          refine ⟨none, ?_, ?_⟩
          · simp only [step, hNone]
            exact .lost hConn
          · rw [replyType, sent, hNone]
            rfl

/-
  A request that can be read to its end, and runs into no
  hazard, is served.
-/
theorem served_of_safe
    {srv : Server}
    {conn : Nat}
    {fids : FidTable}
    {msgType : UInt8}
    {tag : UInt16}
    {body : Bytes}
    {clock : Clock}
    {req : Request}
    (hConn : srv.conns conn = some fids)
    (hDecode : Request.decode msgType body = .ok req)
    (hSafe :
      ∀ cause poisons,
        ¬ Hazard hasher clock tag (srv.session fids) req
          cause poisons)
    (hReadable :
      ∀ fid newfid nwname names err,
        req = .twalk fid newfid nwname names →
          walkNames hasher srv.ramfs nwname.toNat names
            (walkBaseState hasher srv.ramfs fids fid).path
            [] ≠ .error err) :
    ∃ fs fids' reply,
      Effect hasher clock srv.ramfs fids req fs fids'
          reply ∧
        Step hasher srv
          (.request conn msgType tag body clock)
          (some reply)
          (srv.step hasher
            (.request conn msgType tag body clock)) ∧
        srv.step hasher
            (.request conn msgType tag body clock) =
          ⟨fs, srv.poisoned,
            Function.update srv.conns conn (some fids')⟩ ∧
        srv.replyType hasher
            (.request conn msgType tag body clock) =
          some reply.msgType := by
  rcases step_spec_of_open hConn msgType tag body clock with
    ⟨reply, hStep, hType⟩
  generalize
    srv.step hasher
      (.request conn msgType tag body clock) = srv'
    at hStep ⊢
  cases hStep with
  | lost hClosed =>
      cases hConn.symm.trans hClosed
  | malformed hOpen hError =>
      cases hDecode.symm.trans hError
  | badName hOpen hWalk hNames =>
      cases hConn.symm.trans hOpen
      cases hDecode.symm.trans hWalk
      exact (hReadable _ _ _ _ _ rfl hNames).elim
  | panicked hOpen hDecode' hHazard hPanics =>
      cases hConn.symm.trans hOpen
      cases hDecode.symm.trans hDecode'
      exact (hSafe _ _ hHazard).elim
  | served hOpen hDecode' hEffect hFrame hSent =>
      cases hConn.symm.trans hOpen
      cases hDecode.symm.trans hDecode'
      exact ⟨_, _, _, hEffect,
        .served hConn hDecode hEffect hFrame hSent, rfl,
        hType⟩

end Server

end Planten

------------------------------------------------------------
-- Fid Tables along Runs
------------------------------------------------------------

namespace Planten

namespace Server

theorem conns_of_update
    {conns : Nat → Option FidTable}
    {conn other : Nat}
    {entry : Option FidTable}
    {fids : FidTable}
    (hConn :
      Function.update conns other entry conn = some fids) :
    conns conn = some fids ∨
      conn = other ∧ entry = some fids := by
  by_cases hHere : conn = other
  · rw [hHere, Function.update_self] at hConn
    exact Or.inr ⟨hHere, hConn⟩
  · rw [Function.update_of_ne hHere] at hConn
    exact Or.inl hConn

/- An event leaves the other connections alone. -/
theorem conns_step_of_ne
    (hasher : Hasher)
    (srv : Server)
    {event : Event}
    {conn : Nat}
    (hOther : event.conn ≠ conn) :
    (srv.step hasher event).conns conn = srv.conns conn := by
  rcases step_spec hasher srv event with ⟨reply, hStep, _⟩
  generalize srv.step hasher event = srv' at hStep ⊢
  cases hStep with
  | reopened hOpen | lost hClosed =>
      rfl
  | accepted hClosed | closed | malformed hConn hDecode
  | badName hConn hDecode hNames
  | served hConn hDecode hEffect hFrame hSent
  | panicked hConn hDecode hHazard hPanics =>
      exact Function.update_of_ne hOther.symm _ _

/-
  The fid table of a connection after an event: the one
  before, the empty one of a new connection, or the one that
  a request of this connection leaves.
-/
theorem conns_of_step
    {hasher : Hasher}
    {srv : Server}
    {event : Event}
    {conn : Nat}
    {fids' : FidTable}
    (hConn :
      (srv.step hasher event).conns conn = some fids') :
    srv.conns conn = some fids' ∨ fids' = [] ∨
      ∃ msgType tag body clock fids req reply,
        event = .request conn msgType tag body clock ∧
          srv.conns conn = some fids ∧
          Request.decode msgType body = .ok req ∧
          srv.replyType hasher event = some reply.msgType ∧
          Effect hasher clock srv.ramfs fids req
            (srv.step hasher event).ramfs fids' reply := by
  rcases step_spec hasher srv event with
    ⟨reply, hStep, hReply⟩
  generalize srv.step hasher event = srv' at hStep hConn ⊢
  cases hStep with
  | reopened hOpen | lost hClosed =>
      exact Or.inl hConn
  | accepted hClosed =>
      rcases conns_of_update hConn with hOld | ⟨_, hNew⟩
      · exact Or.inl hOld
      · cases hNew
        exact Or.inr (Or.inl rfl)
  | closed | malformed hOpen hDecode
  | badName hOpen hDecode hNames
  | panicked hOpen hDecode hHazard hPanics =>
      rcases conns_of_update hConn with hOld | ⟨_, hNew⟩
      · exact Or.inl hOld
      · cases hNew
  | served hOpen hDecode hEffect hFrame hSent =>
      rcases conns_of_update hConn with hOld | ⟨rfl, hNew⟩
      · exact Or.inl hOld
      · cases hNew
        exact Or.inr (Or.inr
          ⟨_, _, _, _, _, _, _, rfl, hOpen, hDecode, hReply,
            hEffect⟩)

end Server

end Planten

------------------------------------------------------------
-- Changes along Runs
------------------------------------------------------------

namespace Planten

namespace Server

variable {hasher : Hasher}

/- An event leaves the map alone or is an answered request. -/
theorem change_of_step
    (hasher : Hasher)
    (srv : Server)
    (event : Event) :
    (srv.step hasher event).ramfs = srv.ramfs ∧
        srv.replyType hasher event = none ∨
      ∃ clock fids req reply,
        srv.Asks event clock fids req ∧
          srv.replyType hasher event =
            some reply.msgType ∧
          Change clock srv.ramfs.view fids req
            (srv.step hasher event).ramfs.view reply := by
  rcases step_spec hasher srv event with
    ⟨reply, hStep, hType⟩
  revert hStep
  generalize srv.step hasher event = srv'
  intro hStep
  cases hStep with
  | accepted hClosed | reopened hOpen | lost hClosed
  | closed | malformed hConn hDecode
  | badName hConn hDecode hNames
  | panicked hConn hDecode hHazard hPanics =>
      exact Or.inl ⟨rfl, hType⟩
  | served hConn hDecode hEffect hFrame hSent =>
      exact Or.inr ⟨_, _, _, _,
        ⟨_, _, _, _, rfl, hConn, hDecode⟩, hType,
        hEffect.change⟩

/-
  What every change keeps, in the steps that meet a
  condition, holds at the end of a run of such steps.
-/
theorem invariant_of_changes
    {Inv : FlatFs → Prop}
    {P : Server → Event → Prop}
    (hChange :
      ∀ srv event clock fids req reply m',
        Inv srv.ramfs.view → P srv event →
          srv.Asks event clock fids req →
            Change clock srv.ramfs.view fids req m' reply →
              Inv m')
    {srv : Server}
    {events : List Event}
    (hInit : Inv srv.ramfs.view)
    (hAlways : Run.Always (step hasher) P srv events) :
    Inv (Run.final (step hasher) srv events).ramfs.view := by
  apply @Run.invariant_of_always _ _ (step hasher) P
    (fun srv => Inv srv.ramfs.view) ?_ srv events hInit
    hAlways
  intro srv event hInv hMeets
  rcases change_of_step hasher srv event with
    ⟨hSame, _⟩ |
      ⟨clock, fids, req, reply, hAsks, _, hChanged⟩
  · rw [hSame]
    exact hInv
  · exact hChange srv event clock fids req reply _ hInv
      hMeets hAsks hChanged

end Server

end Planten
