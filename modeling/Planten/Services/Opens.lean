import Planten.PseudoFs.Lookups
import Planten.PseudoFs.ServiceFiles
import Planten.Services.Dialogues

/-
  Opens and reads in the pseudo servers.

  The RAMFS reads through a fid only when it was opened, in a
  mode that allows reading, since it was bound.  The pseudo
  servers do not ask: the loop of processes and services
  stores the mode of an open and never looks at it, and that
  of devices and network files does not store it.  So a read
  through a fid that is not open is refused only where every
  read is.

  Key definitions include:
    * `PseudoServer.OpenToRead`
    * `PseudoServer.RefusesRead`
    * `PseudoServer.ReadRule`

  Key theorems include:
    * `PseudoServer.rerror_iff_refusesRead`
    * `PseudoServer.readRule_iff`
    * `PseudoServer.reads_need_open_iff`
-/

------------------------------------------------------------
-- Fids That are Open
------------------------------------------------------------

namespace Planten

namespace PseudoServer

/-
  What an exchange does to a fid: a granted open that allows
  reading opens it, and it is no longer open when it is bound
  or clunked.
-/
def opening
    (fid : UInt32) : PseudoRequest × Reply → Option Bool
| (.tattach fid' _ _ _, .rattach _) =>
    if fid' = fid then some false else none
| (.twalk _ newfid _, .rwalk _) =>
    if newfid = fid then some false else none
| (.tclunk fid', .rclunk) =>
    if fid' = fid then some false else none
| (.topen fid' (some mode), .ropen _ _) =>
    if fid' = fid ∧ modeAllowsRead mode then
      some true
    else
      none
| _ => none

/- The fid was opened for reading since it was bound. -/
def OpenToRead
    (said : Said)
    (fid : UInt32) : Prop :=
  said.findSome? (opening fid) = some true

instance
    (said : Said)
    (fid : UInt32) : Decidable (OpenToRead said fid) := by
  unfold OpenToRead
  infer_instance

/- The servers that take the lock before they look. -/
def locksFirst : PseudoServer → Bool
| procfs => true
| srvfs => true
| devfs => false
| netfs => false

variable {Pid : Type} [DecidableEq Pid]
variable (pids : PidText Pid) (server : PseudoServer)

/-
  A read through the fid is refused, open or not: the lock is
  not poisoned, where it is taken, and the fid is not in the
  table or its path cannot be read.
-/
def RefusesRead
    (access : Access (server.Reading Pid))
    (fids : FidTable)
    (fid : UInt32) : Prop :=
  (server.locksFirst = true ∨ (fids.lookup fid).isSome →
      access.poisoned = false) ∧
    ∀ state,
      fids.lookup fid = some state →
        (server.fs pids).read (access.hosts 0) state.path =
          none

/- The turn reads through a fid of the dialogue. -/
def ReadsFid
    (conn : Option Dialogue)
    (turn : Turn Pid server)
    (d : Dialogue)
    (fid : UInt32) : Prop :=
  conn = some d ∧
    ∃ offset count,
      PseudoRequest.decode turn.msgType turn.body =
        .ok (.tread fid offset count)

/- The turn is answered with an error. -/
def AnswersRerror
    (fids : FidTable)
    (turn : Turn Pid server) : Prop :=
  ∃ fids' req message,
    server.exchange pids fids turn =
      some (fids', req, .rerror message)

/- The turn is answered with data. -/
def AnswersRread
    (fids : FidTable)
    (turn : Turn Pid server) : Prop :=
  ∃ fids' req data,
    server.exchange pids fids turn =
      some (fids', req, .rread data)

/-
  Data are read only through a fid that is open to read, and
  through any other a read is answered with an error.
-/
def ReadRule
    (conn : Option Dialogue)
    (turn : Turn Pid server) : Prop :=
  ∀ d fid,
    server.ReadsFid conn turn d fid →
      (server.AnswersRread pids d.state turn →
          OpenToRead d.entries fid) ∧
        (¬ OpenToRead d.entries fid →
          server.AnswersRerror pids d.state turn)

/- A read goes through an open fid, or is refused anyway. -/
def ReadsOpen
    (conn : Option Dialogue)
    (turn : Turn Pid server) : Prop :=
  ∀ d fid,
    server.ReadsFid conn turn d fid →
      OpenToRead d.entries fid ∨
        server.RefusesRead pids turn.env d.state fid

/- A condition on every turn of a connection. -/
def Throughout
    (P : Option Dialogue → Turn Pid server → Prop)
    (turns : List (Turn Pid server)) : Prop :=
  Run.Always (Journal.step (server.exchange pids)) P
    (some ⟨[], []⟩) turns

end PseudoServer

end Planten

------------------------------------------------------------
-- How Reads are Answered
------------------------------------------------------------

namespace Planten

namespace PseudoServer

variable {Pid : Type} [DecidableEq Pid]
variable {pids : PidText Pid} {server : PseudoServer}
variable {fids : FidTable} {turn : Turn Pid server}
variable {fid : UInt32} {offset : UInt64} {count : UInt32}

@[simp] theorem locksFirst_loop :
    (server.loop pids).locksFirst = server.locksFirst := by
  cases server <;> rfl

/- A read that is refused runs into no hazard. -/
theorem not_hazard_of_refusesRead
    (hRefuses :
      server.RefusesRead pids turn.env fids fid) :
    ¬ (server.loop pids).Hazard turn.env fids
      (.tread fid offset count) := by
  intro hHazard
  cases hHazard with
  | readLock hTakes hPoisoned =>
      rw [locksFirst_loop] at hTakes
      cases hPoisoned.symm.trans (hRefuses.1 hTakes)
  | readEnd hFid hData hEnd
  | readSize hFid hData hLow hHigh =>
      rw [fs_loop] at hData
      cases hData.symm.trans (hRefuses.2 _ hFid)

/-
  In every state, a read is answered with an error exactly
  when it is refused.  Whether the fid is open has no part in
  it.
-/
theorem rerror_iff_refusesRead
    (hDecode :
      PseudoRequest.decode turn.msgType turn.body =
        .ok (.tread fid offset count)) :
    server.AnswersRerror pids fids turn ↔
      server.RefusesRead pids turn.env fids fid := by
  constructor
  · rintro ⟨fids', req, message, hExchange⟩
    rcases exchange_or_hazard hDecode with
      ⟨hHazard, hNone⟩ | ⟨hSafe, _⟩
    · cases hNone.symm.trans hExchange
    · have hReq := (exchange_eq_some.mp hExchange).1
      cases hDecode.symm.trans hReq
      have hFree :
          server.locksFirst = true ∨
              (fids.lookup fid).isSome →
            turn.env.poisoned = false := by
        intro hTakes
        apply Bool.eq_false_of_not_eq_true
        intro hPoisoned
        rw [← @locksFirst_loop _ _ pids] at hTakes
        exact hSafe (.readLock hTakes hPoisoned)
      refine ⟨hFree, ?_⟩
      intro state hFid
      cases effect_of_exchange hExchange with
      | refused hRefusal =>
          cases hRefusal with
          | readUnknown hNone =>
              cases hNone.symm.trans hFid
          | readMissing hKnown hData =>
              cases hKnown.symm.trans hFid
              rwa [fs_loop] at hData
  · intro hRefuses
    rcases exchange_or_hazard hDecode with
      ⟨hHazard, _⟩ | ⟨_, fids', reply, hExchange⟩
    · exact (not_hazard_of_refusesRead hRefuses
        hHazard).elim
    · cases effect_of_exchange hExchange with
      | read hFid hData =>
          rw [fs_loop] at hData
          cases hData.symm.trans (hRefuses.2 _ hFid)
      | refused hRefusal =>
          exact ⟨_, _, _, hExchange⟩

/- One turn keeps the rule exactly when it meets the need. -/
theorem readRule_iff
    (conn : Option Dialogue)
    (turn : Turn Pid server) :
    server.ReadRule pids conn turn ↔
      server.ReadsOpen pids conn turn := by
  constructor
  · intro hRule d fid hReads
    rcases hReads with ⟨hConn, offset, count, hDecode⟩
    by_cases hOpen : OpenToRead d.entries fid
    · exact Or.inl hOpen
    · apply Or.inr
      apply (rerror_iff_refusesRead hDecode).mp
      exact (hRule d fid
        ⟨hConn, offset, count, hDecode⟩).2 hOpen
  · intro hNeed d fid hReads
    have hHere := hNeed d fid hReads
    rcases hReads with ⟨hConn, offset, count, hDecode⟩
    rcases hHere with hOpen | hRefuses
    · exact ⟨fun _ => hOpen,
        fun hClosed => (hClosed hOpen).elim⟩
    · have hError :=
        (rerror_iff_refusesRead hDecode).mpr hRefuses
      refine ⟨?_, fun _ => hError⟩
      rintro ⟨_, _, data, hRead⟩
      rcases hError with ⟨_, _, message, hRerror⟩
      cases hRead.symm.trans hRerror

/-
  A connection of a pseudo server keeps the rule of the
  RAMFS for reads exactly when each of its reads goes through
  a fid that is open to read or is refused anyway.
-/
theorem reads_need_open_iff
    (pids : PidText Pid)
    (server : PseudoServer)
    (turns : List (Turn Pid server)) :
    server.Throughout pids (server.ReadRule pids) turns ↔
      server.Throughout pids (server.ReadsOpen pids) turns :=
  Run.always_congr _ readRule_iff _ turns

end PseudoServer

end Planten

------------------------------------------------------------
-- A Read after an Open to Write
------------------------------------------------------------

namespace Planten

namespace PseudoServer

/- A client attaches, opens the root to write, and reads. -/
def attachTurn : Turn Nat .srvfs :=
  ⟨SrvFs.oneServiceAccess, TATTACH, 0,
    encodeAttachBody 0 none "" ""⟩

def openTurn : Turn Nat .srvfs :=
  ⟨SrvFs.oneServiceAccess, TOPEN, 0, encodeOpenBody 0 1⟩

def readTurn : Turn Nat .srvfs :=
  ⟨SrvFs.oneServiceAccess, TREAD, 0, encodeReadBody 0 0 8⟩

/- The table and what is said before the read. -/
def openedToWrite : Dialogue where
  state := [(0, ⟨"/", ProcSrv.zeroQid, some 1⟩)]
  entries :=
    [(.topen 0 (some 1),
        .ropen ProcSrv.zeroQid MAX_MSG_SIZE),
      (.tattach 0 0 "" "", .rattach ProcSrv.zeroQid)]

/-
  The read is answered with data, although the mode that was
  stored does not allow it.
-/
theorem reads_unopened :
    ¬ Throughout ProcFs.numberPids .srvfs
        (ReadRule ProcFs.numberPids .srvfs)
        [attachTurn, openTurn, readTurn] ∧
      exchange ProcFs.numberPids .srvfs openedToWrite.state
          readTurn =
        some (openedToWrite.state, .tread 0 0 8,
          .rread (asBytes "foo")) := by
  have hAttach :
      exchange ProcFs.numberPids .srvfs [] attachTurn =
        some ([(0, ⟨"/", ProcSrv.zeroQid, none⟩)],
          .tattach 0 0 "" "", .rattach ProcSrv.zeroQid) := by
    decide +kernel
  have hOpen :
      exchange ProcFs.numberPids .srvfs
          [(0, ⟨"/", ProcSrv.zeroQid, none⟩)] openTurn =
        some (openedToWrite.state, .topen 0 (some 1),
          .ropen ProcSrv.zeroQid MAX_MSG_SIZE) := by
    decide +kernel
  have hRead :
      exchange ProcFs.numberPids .srvfs openedToWrite.state
          readTurn =
        some (openedToWrite.state, .tread 0 0 8,
          .rread (asBytes "foo")) := by
    decide +kernel
  refine ⟨?_, hRead⟩
  rintro ⟨_, _, hRule, _⟩
  simp only [Journal.step, Option.bind_some, hAttach,
    Option.map_some, hOpen] at hRule
  have hReads :
      ReadsFid .srvfs (some openedToWrite) readTurn
        openedToWrite 0 :=
    ⟨rfl, 0, 8, by decide +kernel⟩
  have hOpened : OpenToRead openedToWrite.entries 0 :=
    (hRule openedToWrite 0 hReads).1 ⟨_, _, _, hRead⟩
  exact absurd hOpened (by decide)

end PseudoServer

end Planten
