import Planten.RamFs.Runs

/-
  One connection of the server, among others.

  Between two requests of a connection the others may do to
  the shared file system and its lock whatever they like.  So
  a request of the connection is a visit: a frame, with the
  file system and the lock it finds.  A connection of a run
  of the server is a run of such visits.

  Key definitions include:
    * `Visit`
    * `Connection`
    * `Connection.step`
    * `Server.visits`

  Key theorems include:
    * `Connection.step_spec`
    * `Server.connection_final`
-/

------------------------------------------------------------
-- Connections
------------------------------------------------------------

namespace Planten

/- A frame, and what its handler finds. -/
structure Visit where
  ramfs : RamFs
  poisoned : Bool
  msgType : UInt8
  tag : UInt16
  body : Bytes
  clock : Clock

/- The fields of the request of a visit. -/
def Visit.decode (visit : Visit) : Except IoError Request :=
  Request.decode visit.msgType visit.body

/- The fid table of a connection, until the connection ends. -/
abbrev Connection :=
  Option FidTable

namespace Connection

variable (hasher : Hasher)

/- The session a visit is handled in. -/
def session
    (visit : Visit)
    (fids : FidTable) : Session :=
  ⟨visit.ramfs, visit.poisoned, fids, []⟩

/- How the handler of a visit ends. -/
def handle
    (conn : Connection)
    (visit : Visit) :
    Option (EStateM.Result Fault Session Unit) :=
  conn.map (fun fids =>
    handleMessage hasher visit.clock visit.msgType visit.tag
      visit.body (session visit fids))

/- The connection after a visit. -/
def step
    (conn : Connection)
    (visit : Visit) : Connection :=
  match conn.handle hasher visit with
  | some (.ok () s) => some s.fids
  | _ => none

/- The bytes sent in answer to a visit. -/
def sent
    (conn : Connection)
    (visit : Visit) : Bytes :=
  match conn.handle hasher visit with
  | some (.ok () s) => s.sent
  | _ => []

/- The type of the reply to a visit. -/
def replyType
    (conn : Connection)
    (visit : Visit) : Option UInt8 :=
  (conn.sent hasher visit)[4]?

/- The file system a visit leaves. -/
def leaves
    (conn : Connection)
    (visit : Visit) : RamFs :=
  match conn.handle hasher visit with
  | some (.ok () s) => s.ramfs
  | some (.error _ s) => s.ramfs
  | none => visit.ramfs

/- The state of a fid. -/
def fidState
    (conn : Connection)
    (fid : UInt32) : Option FidState :=
  conn.bind (fun fids => fids.lookup fid)

/- The open mode of a fid. -/
def openMode
    (conn : Connection)
    (fid : UInt32) : Option UInt8 :=
  (conn.fidState fid).bind FidState.openMode

end Connection

end Planten

------------------------------------------------------------
-- Steps of a Connection
------------------------------------------------------------

namespace Planten

namespace Connection

variable {hasher : Hasher} {conn : Connection}
variable {visit : Visit}

/-
  A visit is answered to one effect of its request, or ends
  the connection without a reply and leaves the file system
  as it is.
-/
theorem step_spec
    (hasher : Hasher)
    (conn : Connection)
    (visit : Visit) :
    (conn.step hasher visit = none ∧
        conn.sent hasher visit = [] ∧
        conn.leaves hasher visit = visit.ramfs) ∨
      ∃ fids req fids' reply,
        conn = some fids ∧
          visit.decode = .ok req ∧
          Effect hasher visit.clock visit.ramfs fids req
            (conn.leaves hasher visit) fids' reply ∧
          conn.step hasher visit = some fids' ∧
          reply.frame visit.tag =
            .ok (conn.sent hasher visit) := by
  cases conn with
  | none =>
      exact Or.inl ⟨rfl, rfl, rfl⟩
  | some fids =>
      have hOutcome :=
        handleMessage_outcome hasher visit.clock visit.tag
          visit.body (session visit fids) visit.msgType
      have hHandle :
          handle hasher (some fids) visit =
            some (handleMessage hasher visit.clock
              visit.msgType visit.tag visit.body
              (session visit fids)) :=
        rfl
      simp only [step, sent, leaves, hHandle]
      revert hOutcome
      generalize hDecode :
        Request.decode visit.msgType visit.body = decoded
      generalize
        handleMessage hasher visit.clock visit.msgType
          visit.tag visit.body (session visit fids) =
            result
      intro hOutcome
      cases hOutcome with
      | malformed err | badName hNames
      | panicked hHazard =>
          exact Or.inl ⟨rfl, rfl, rfl⟩
      | served hEffect hFrame =>
          exact Or.inr ⟨fids, _, _, _, rfl, hDecode,
            hEffect, rfl, hFrame⟩

/- The effect behind the reply to a visit. -/
theorem effect_of_replyType
    {t : UInt8}
    {req : Request}
    (hDecode : visit.decode = .ok req)
    (hType : conn.replyType hasher visit = some t) :
    ∃ fids fids' reply,
      conn = some fids ∧
        reply.msgType = t ∧
        Effect hasher visit.clock visit.ramfs fids req
          (conn.leaves hasher visit) fids' reply ∧
        conn.step hasher visit = some fids' := by
  rcases step_spec hasher conn visit with
    ⟨_, hSent, _⟩ |
      ⟨fids, req', fids', reply, hConn, hDecode', hEffect,
        hStep, hFrame⟩
  · rw [replyType, hSent] at hType
    cases hType
  · cases hDecode.symm.trans hDecode'
    rw [replyType, Server.type_of_buildFrame hFrame] at hType
    exact ⟨fids, fids', reply, hConn,
      Option.some.inj hType, hEffect, hStep⟩

/- An answered visit keeps the connection. -/
theorem effect_of_step
    {fids' : FidTable}
    (hStep : conn.step hasher visit = some fids') :
    ∃ fids req reply,
      conn = some fids ∧
        visit.decode = .ok req ∧
        Effect hasher visit.clock visit.ramfs fids req
          (conn.leaves hasher visit) fids' reply ∧
        conn.replyType hasher visit =
          some reply.msgType := by
  rcases step_spec hasher conn visit with
    ⟨hEnds, _, _⟩ |
      ⟨fids, req, fids'', reply, hConn, hDecode, hEffect,
        hKeeps, hFrame⟩
  · cases hStep.symm.trans hEnds
  · cases hStep.symm.trans hKeeps
    exact ⟨fids, req, reply, hConn, hDecode, hEffect,
      Server.type_of_buildFrame hFrame⟩

theorem fidState_some
    (fids : FidTable)
    (fid : UInt32) :
    fidState (some fids) fid = fids.lookup fid :=
  rfl

theorem fidState_of_lookup
    {fids : FidTable}
    {fid : UInt32}
    {state : FidState}
    (hConn : conn = some fids)
    (hFid : fids.lookup fid = some state) :
    conn.fidState fid = some state := by
  rw [hConn]
  exact hFid

theorem openMode_of_lookup
    {fids : FidTable}
    {fid : UInt32}
    {state : FidState}
    (hFid : fids.lookup fid = some state) :
    openMode (some fids) fid = state.openMode := by
  rw [openMode, fidState_some, hFid]
  rfl

end Connection

end Planten

------------------------------------------------------------
-- The Connections of a Server
------------------------------------------------------------

namespace Planten

namespace Server

variable (hasher : Hasher)

/- The visits of a connection in a run of the server. -/
def visits
    (conn : Nat) :
    Server → List Event → List Visit
| _, [] => []
| srv, event :: events =>
    match event with
    | .request conn' msgType tag body clock =>
        if conn' = conn then
          ⟨srv.ramfs, srv.poisoned, msgType, tag, body,
              clock⟩ ::
            visits conn (srv.step hasher event) events
        else
          visits conn (srv.step hasher event) events
    | _ => visits conn (srv.step hasher event) events

variable {hasher}

/- A request steps its connection as a visit. -/
theorem connection_step
    (hasher : Hasher)
    (srv : Server)
    (conn : Nat)
    (msgType : UInt8)
    (tag : UInt16)
    (body : Bytes)
    (clock : Clock) :
    (srv.step hasher
        (.request conn msgType tag body clock)).conns conn =
      Connection.step hasher (srv.conns conn)
        ⟨srv.ramfs, srv.poisoned, msgType, tag, body,
          clock⟩ := by
  cases hConn : srv.conns conn with
  | none =>
      simp only [step,
        handle_of_closed hConn hasher msgType tag body clock]
      exact hConn
  | some fids =>
      have hHandle :
          Connection.handle hasher (some fids)
            ⟨srv.ramfs, srv.poisoned, msgType, tag, body,
              clock⟩ =
          some (handleMessage hasher clock msgType tag body
            (srv.session fids)) :=
        rfl
      simp only [step, Connection.step, hHandle,
        handle_of_open hConn hasher msgType tag body clock]
      cases handleMessage hasher clock msgType tag body
        (srv.session fids) with
      | ok done s =>
          exact Function.update_self ..
      | error fault s =>
          exact Function.update_self ..

/-
  While a connection neither opens nor closes, it makes the
  run of its visits.
-/
theorem connection_final
    (hasher : Hasher)
    {srv : Server}
    {conn : Nat}
    {events : List Event}
    (hKept :
      ∀ event ∈ events,
        event ≠ .accept conn ∧ event ≠ .close conn) :
    (Run.final (step hasher) srv events).conns conn =
      Run.final (Connection.step hasher) (srv.conns conn)
        (visits hasher conn srv events) := by
  induction events generalizing srv with
  | nil =>
      rfl
  | cons event events ih =>
      rcases hKept event (List.mem_cons_self ..) with
        ⟨hAccept, hClose⟩
      have hTail :=
        @ih (srv.step hasher event) (fun other hMem =>
          hKept other (List.mem_cons_of_mem event hMem))
      rw [Run.final_cons, hTail]
      have hSame (hOther : event.conn ≠ conn) :=
        conns_step_of_ne hasher srv hOther
      cases event with
      | accept conn' =>
          rw [hSame (fun hEq =>
            hAccept (congrArg Event.accept hEq))]
          rfl
      | close conn' =>
          rw [hSame (fun hEq =>
            hClose (congrArg Event.close hEq))]
          rfl
      | request conn' msgType tag body clock =>
          by_cases hHere : conn' = conn
          · subst hHere
            rw [connection_step, visits, if_pos rfl]
            rfl
          · rw [hSame hHere, visits, if_neg hHere]

end Server

end Planten
