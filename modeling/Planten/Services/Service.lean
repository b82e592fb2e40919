import Planten.PseudoFs.Survival
import Planten.RamFs.Connection

/-
  The five 9P servers, seen from one connection.

  A server answers the frames of a connection in turn.  What
  a turn finds of the state that all connections share, and
  of the host, is given with the turn: between two turns of
  one connection the others may change it in any way.

  Key definitions include:
    * `Service`
    * `Service.answer`
    * `Service.run`
    * `FileServer.service`

  Key theorems include:
    * `FileServer.service_rule`
    * `effect_of_ramServe`
    * `Loop.effect_of_serve`
    * `Connection.step_eq_ramServe`
-/

------------------------------------------------------------
-- Services
------------------------------------------------------------

namespace Planten

/-
  A server: what a turn finds besides the fid table, whether
  the lock it finds is poisoned, and how it ends.
-/
structure Service where
  Env : Type
  poisoned : Env → Bool
  serve :
    Env → FidTable → UInt8 → UInt16 → Bytes →
      Except Fault (FidTable × Bytes)

/- A frame, and what its handler finds. -/
structure ServiceTurn (Env : Type) where
  env : Env
  msgType : UInt8
  tag : UInt16
  body : Bytes

namespace Service

variable (S : Service)

/- How a turn is answered, if it is. -/
def answer
    (fids : FidTable)
    (turn : ServiceTurn S.Env) : Option (FidTable × Bytes) :=
  (S.serve turn.env fids turn.msgType turn.tag
    turn.body).toOption

/- The fid table after a turn, until the connection ends. -/
def step
    (conn : Option FidTable)
    (turn : ServiceTurn S.Env) : Option FidTable :=
  conn.bind (fun fids =>
    (S.answer fids turn).map Prod.fst)

/- The frame sent in answer to a turn. -/
def sent
    (conn : Option FidTable)
    (turn : ServiceTurn S.Env) : Option Bytes :=
  conn.bind (fun fids =>
    (S.answer fids turn).map Prod.snd)

/- The connection after some turns; it starts without fids. -/
def run (turns : List (ServiceTurn S.Env)) : Option FidTable :=
  Run.final S.step (some []) turns

variable {S}

theorem answer_eq_some
    {fids : FidTable}
    {turn : ServiceTurn S.Env}
    {r : FidTable × Bytes}
    (hAnswer : S.answer fids turn = some r) :
    S.serve turn.env fids turn.msgType turn.tag turn.body =
      .ok r := by
  unfold answer at hAnswer
  cases hServe :
    S.serve turn.env fids turn.msgType turn.tag turn.body with
  | error fault =>
      rw [hServe] at hAnswer
      cases hAnswer
  | ok r' =>
      rw [hServe] at hAnswer
      exact congrArg Except.ok (Option.some.inj hAnswer)

/- A turn that keeps the connection is answered. -/
theorem answer_of_step
    {conn : Option FidTable}
    {turn : ServiceTurn S.Env}
    {fids' : FidTable}
    (hStep : S.step conn turn = some fids') :
    ∃ fids frame,
      conn = some fids ∧
        S.answer fids turn = some (fids', frame) := by
  rcases Option.bind_eq_some_iff.mp hStep with
    ⟨fids, hConn, hMap⟩
  rcases Option.map_eq_some_iff.mp hMap with
    ⟨⟨fids'', frame⟩, hAnswer, rfl⟩
  exact ⟨fids, frame, hConn, hAnswer⟩

theorem answer_of_sent
    {conn : Option FidTable}
    {turn : ServiceTurn S.Env}
    {frame : Bytes}
    (hSent : S.sent conn turn = some frame) :
    ∃ fids fids',
      conn = some fids ∧
        S.answer fids turn = some (fids', frame) := by
  rcases Option.bind_eq_some_iff.mp hSent with
    ⟨fids, hConn, hMap⟩
  rcases Option.map_eq_some_iff.mp hMap with
    ⟨⟨fids', frame'⟩, hAnswer, rfl⟩
  exact ⟨fids, fids', hConn, hAnswer⟩

end Service

end Planten

------------------------------------------------------------
-- The Five Servers
------------------------------------------------------------

namespace Planten

/- What a turn of the RAMFS server finds. -/
structure RamAccess where
  ramfs : RamFs
  poisoned : Bool
  clock : Clock

/- One turn of the RAMFS server. -/
def ramServe
    (hasher : Hasher)
    (access : RamAccess)
    (fids : FidTable)
    (msgType : UInt8)
    (tag : UInt16)
    (body : Bytes) : Except Fault (FidTable × Bytes) :=
  match handleMessage hasher access.clock msgType tag body
      ⟨access.ramfs, access.poisoned, fids, []⟩ with
  | .ok () s => .ok (s.fids, s.sent)
  | .error fault _ => .error fault

def ramService (hasher : Hasher) : Service :=
  ⟨RamAccess, RamAccess.poisoned, ramServe hasher⟩

def Loop.service
    {H : Type}
    (loop : Loop H) : Service :=
  ⟨Access H, Access.poisoned, fun access fids =>
    Planten.serve (loop.handle access fids)⟩

inductive FileServer where
| ramfs
| procfs
| srvfs
| devfs
| netfs
deriving DecidableEq, Repr

variable {Pid : Type} [DecidableEq Pid]

/- The servers, by name. -/
def FileServer.service
    (hasher : Hasher)
    (pids : PidText Pid) : FileServer → Service
| ramfs => ramService hasher
| procfs =>
    ⟨Access (ProcTable Pid), Access.poisoned,
      ProcFs.handleClient pids⟩
| srvfs =>
    ⟨Access SrvRoot, Access.poisoned, SrvFs.handleClient⟩
| devfs =>
    ⟨Access (Nat → UInt8), Access.poisoned,
      DevFs.handleClient⟩
| netfs =>
    ⟨Access NetHost, Access.poisoned, NetFs.handleClient⟩

/-
  What holds of the RAMFS server and of every request loop
  holds of the five servers.
-/
theorem FileServer.service_rule
    {P : Service → Prop}
    (hasher : Hasher)
    (pids : PidText Pid)
    (hRam : P (ramService hasher))
    (hLoop :
      ∀ (H : Type) (loop : Loop H), P loop.service)
    (server : FileServer) :
    P (server.service hasher pids) := by
  cases server with
  | ramfs =>
      exact hRam
  | procfs =>
      have hHere := hLoop _ (ProcFs.loop pids)
      simp only [Loop.service, ← ProcFs.handleClient_eq]
        at hHere
      exact hHere
  | srvfs =>
      have hHere := hLoop _ SrvFs.loop
      simp only [Loop.service, ← SrvFs.handleClient_eq]
        at hHere
      exact hHere
  | devfs =>
      have hHere := hLoop _ DevFs.loop
      simp only [Loop.service, ← DevFs.handleClient_eq]
        at hHere
      exact hHere
  | netfs =>
      have hHere := hLoop _ NetFs.loop
      simp only [Loop.service, ← NetFs.handleClient_eq]
        at hHere
      exact hHere

end Planten

------------------------------------------------------------
-- Answered Turns
------------------------------------------------------------

namespace Planten

/- An answered turn of the RAMFS is an effect, framed. -/
theorem effect_of_ramServe
    {hasher : Hasher}
    {access : RamAccess}
    {fids fids' : FidTable}
    {msgType : UInt8}
    {tag : UInt16}
    {body frame : Bytes}
    (hServe :
      ramServe hasher access fids msgType tag body =
        .ok (fids', frame)) :
    ∃ req fs' reply,
      Request.decode msgType body = .ok req ∧
        Effect hasher access.clock access.ramfs fids req fs'
          fids' reply ∧
        reply.frame tag = .ok frame := by
  have hOutcome :=
    handleMessage_outcome hasher access.clock tag body
      ⟨access.ramfs, access.poisoned, fids, []⟩ msgType
  unfold ramServe at hServe
  revert hServe hOutcome
  generalize handleMessage hasher access.clock msgType tag
    body ⟨access.ramfs, access.poisoned, fids, []⟩ = result
  generalize hDecode : Request.decode msgType body = decoded
  intro hServe hOutcome
  cases hOutcome with
  | malformed err | badName hNames | panicked hHazard =>
      cases hServe
  | served hEffect hFrame =>
      cases hServe
      exact ⟨_, _, _, rfl, hEffect, hFrame⟩

/- An answered turn of a loop is an effect, framed. -/
theorem Loop.effect_of_serve
    {H : Type}
    {loop : Loop H}
    {access : Access H}
    {fids fids' : FidTable}
    {msgType : UInt8}
    {tag : UInt16}
    {body frame : Bytes}
    (hServe :
      Planten.serve (loop.handle access fids) msgType tag
        body = .ok (fids', frame)) :
    ∃ req reply,
      PseudoRequest.decode msgType body = .ok req ∧
        loop.Effect access fids req fids' reply ∧
        reply.frame tag = .ok frame := by
  rw [serve_eq] at hServe
  cases hDecode : PseudoRequest.decode msgType body with
  | error err =>
      rw [hDecode] at hServe
      cases hServe
  | ok req =>
      simp only [hDecode] at hServe
      cases hRespond :
        loop.respond access fids tag req with
      | error cause =>
          rw [hRespond] at hServe
          cases hServe
      | ok sent =>
          rw [hRespond] at hServe
          cases hServe
          rcases frame_of_respond hRespond with
            ⟨reply, hEffect, hFrame⟩
          exact ⟨req, reply, rfl, hEffect, hFrame⟩

/- The turns of the RAMFS are the visits of its connections. -/
theorem Connection.step_eq_ramServe
    (hasher : Hasher)
    (conn : Connection)
    (visit : Visit) :
    conn.step hasher visit =
      (ramService hasher).step conn
        ⟨⟨visit.ramfs, visit.poisoned, visit.clock⟩,
          visit.msgType, visit.tag, visit.body⟩ := by
  cases conn with
  | none =>
      rfl
  | some fids =>
      simp only [step, handle, Option.map_some, session,
        Service.step, Service.answer, ramService, ramServe,
        Option.bind_some]
      cases handleMessage hasher visit.clock visit.msgType
        visit.tag visit.body
        ⟨visit.ramfs, visit.poisoned, fids, []⟩ <;> rfl

end Planten
