import Planten.Library.Simulations
import Planten.Services.Opens

/-
  Requests that only look.

  In the pseudo servers Tattach, Twalk and Tclunk make what a
  connection is.  All other requests are answered from the
  paths and qids of the fids and leave these alone; the mode
  that an open stores is never read.  So these requests may
  be left out of a run, and nothing else changes.

  Key definitions include:
    * `PseudoRequest.Looks`
    * `SameFid`, `SameFids`
    * `SameOutcome`
    * `PseudoServer.SameAnswer`, `PseudoServer.Spared`

  Key theorems include:
    * `Loop.sameOutcome_handle`
    * `Loop.Effect.sameFids`
    * `PseudoServer.erasure`
    * `PseudoServer.others_decide_nothing`
-/

------------------------------------------------------------
-- Tables with the Same Fids
------------------------------------------------------------

namespace Planten

/- A request that only looks. -/
def PseudoRequest.Looks : PseudoRequest → Prop
| .tattach _ _ _ _ => False
| .twalk _ _ _ => False
| .tclunk _ => False
| _ => True

/- The states differ in nothing but how the fid was opened. -/
structure SameFid (state state' : FidState) : Prop where
  path : state.path = state'.path
  qid : state.qid = state'.qid

/- The tables have the same fids. -/
def SameFids (fids fids' : FidTable) : Prop :=
  ∀ fid,
    Option.Rel SameFid (fids.lookup fid) (fids'.lookup fid)

/- A request ends in the same way, but for the modes. -/
inductive SameOutcome :
    Except Panic (FidTable × Reply) →
      Except Panic (FidTable × Reply) → Prop where
| panicked {cause : Panic} :
    SameOutcome (.error cause) (.error cause)
| answered
    {fids fids' : FidTable} {reply : Reply}
    (hFids : SameFids fids fids') :
    SameOutcome (.ok (fids, reply)) (.ok (fids', reply))

/- The same value ends up in the same outcome. -/
theorem SameOutcome.bind
    {α : Type}
    {x : Except Panic α}
    {f g : α → Except Panic (FidTable × Reply)}
    (hSame : ∀ a, SameOutcome (f a) (g a)) :
    SameOutcome (x >>= f) (x >>= g) := by
  cases x with
  | error cause =>
      exact .panicked
  | ok a =>
      exact hSame a

/- A stat record does not tell how a fid was opened. -/
def Loop.RecordsFids
    {H : Type}
    (loop : Loop H) : Prop :=
  ∀ state state' inode,
    SameFid state state' →
      loop.record state inode = loop.record state' inode

namespace SameFids

variable {fids fids' fids'' : FidTable}
variable {state state' : FidState}

theorem refl (fids : FidTable) : SameFids fids fids := by
  intro fid
  cases fids.lookup fid with
  | none =>
      exact .none
  | some state =>
      exact .some ⟨rfl, rfl⟩

theorem trans
    (hFirst : SameFids fids fids')
    (hSecond : SameFids fids' fids'') :
    SameFids fids fids'' := by
  intro fid
  have hLeft := hFirst fid
  have hRight := hSecond fid
  revert hLeft hRight
  generalize fids.lookup fid = a
  generalize fids'.lookup fid = b
  generalize fids''.lookup fid = c
  intro hLeft hRight
  cases hLeft with
  | none =>
      exact hRight
  | some hState =>
      cases hRight with
      | some hState' =>
          exact .some ⟨hState.path.trans hState'.path,
            hState.qid.trans hState'.qid⟩

theorem insert
    (hFids : SameFids fids fids')
    (fid : UInt32)
    (hState : SameFid state state') :
    SameFids (KeyMap.insert fid state fids)
      (KeyMap.insert fid state' fids') := by
  intro fid'
  rw [KeyMap.lookup_insert, KeyMap.lookup_insert]
  split
  · exact .some hState
  · exact hFids fid'

theorem erase
    (hFids : SameFids fids fids')
    (fid : UInt32) :
    SameFids (KeyMap.erase fid fids)
      (KeyMap.erase fid fids') := by
  intro fid'
  rw [KeyMap.lookup_erase, KeyMap.lookup_erase]
  split
  · exact .none
  · exact hFids fid'

/- Another mode for a fid leaves the fids the same. -/
theorem insert_mode
    {fid : UInt32}
    (hFid : fids.lookup fid = some state)
    (mode : Option UInt8) :
    SameFids
      (KeyMap.insert fid { state with openMode := mode }
        fids) fids := by
  intro fid'
  rw [KeyMap.lookup_insert]
  split
  · rename_i hSame
    rw [hSame, hFid]
    exact .some ⟨rfl, rfl⟩
  · exact refl fids fid'

/- A fid is known in both tables, or in neither. -/
theorem lookup_cases
    (hFids : SameFids fids fids')
    (fid : UInt32) :
    (fids.lookup fid = none ∧ fids'.lookup fid = none) ∨
      ∃ state state',
        fids.lookup fid = some state ∧
          fids'.lookup fid = some state' ∧
          SameFid state state' := by
  have hRel := hFids fid
  revert hRel
  generalize fids.lookup fid = a
  generalize fids'.lookup fid = b
  intro hRel
  cases hRel with
  | none =>
      exact Or.inl ⟨rfl, rfl⟩
  | some hState =>
      exact Or.inr ⟨_, _, rfl, rfl, hState⟩

end SameFids

end Planten

------------------------------------------------------------
-- One Request
------------------------------------------------------------

namespace Planten

namespace Loop

variable {H : Type} {loop : Loop H} {access : Access H}
variable {fids fids' : FidTable}

theorem basePath_same
    (hFids : SameFids fids fids')
    (fid : UInt32) :
    loop.basePath fids fid = loop.basePath fids' fid := by
  unfold basePath
  rcases hFids.lookup_cases fid with
    ⟨hNone, hNone'⟩ | ⟨state, state', hFid, hFid', hState⟩
  · rw [hNone, hNone']
  · rw [hFid, hFid']
    exact hState.path

theorem lockFor_same
    (hFids : SameFids fids fids')
    (fid : UInt32) :
    loop.lockFor access fids fid =
      loop.lockFor access fids' fid := by
  unfold lockFor
  rcases hFids.lookup_cases fid with
    ⟨hNone, hNone'⟩ | ⟨state, state', hFid, hFid', hState⟩
  · rw [hNone, hNone']
  · rw [hFid, hFid']
    rfl

theorem sameOutcome_attach
    (hFids : SameFids fids fids')
    (fid : UInt32) :
    SameOutcome (loop.handleAttach access fids fid)
      (loop.handleAttach access fids' fid) :=
  .bind (fun _ => .answered (hFids.insert fid ⟨rfl, rfl⟩))

theorem sameOutcome_walk
    (hFids : SameFids fids fids')
    (fid newfid : UInt32)
    (names : List String) :
    SameOutcome
      (loop.handleWalk access fids fid newfid names)
      (loop.handleWalk access fids' fid newfid names) := by
  unfold handleWalk
  rw [basePath_same hFids fid]
  refine .bind (fun _ => .bind (fun found => ?_))
  cases found with
  | none =>
      exact .answered hFids
  | some r =>
      exact .bind (fun _ =>
        .answered (hFids.insert newfid ⟨rfl, rfl⟩))

theorem sameOutcome_open
    (hFids : SameFids fids fids')
    (fid : UInt32)
    (mode : Option UInt8) :
    SameOutcome (loop.handleOpen access fids fid mode)
      (loop.handleOpen access fids' fid mode) := by
  unfold handleOpen
  rcases hFids.lookup_cases fid with
    ⟨hNone, hNone'⟩ | ⟨state, state', hFid, hFid', hState⟩
  · rw [hNone, hNone']
    split
    · cases mode with
      | none =>
          exact .panicked
      | some mode =>
          exact .bind (fun _ => .answered hFids)
    · exact .answered hFids
  · rw [hFid, hFid']
    simp only [hState.path, hState.qid]
    split
    · cases mode with
      | none =>
          exact .panicked
      | some mode =>
          refine .bind (fun _ => .bind (fun found => ?_))
          cases found with
          | none =>
              exact .answered hFids
          | some inode =>
              exact .answered (hFids.insert fid ⟨rfl, rfl⟩)
    · exact .answered hFids

theorem sameOutcome_read
    (hFids : SameFids fids fids')
    (fid : UInt32)
    (offset : UInt64)
    (count : UInt32) :
    SameOutcome
      (loop.handleRead access fids fid offset count)
      (loop.handleRead access fids' fid offset count) := by
  unfold handleRead
  rw [lockFor_same hFids fid]
  refine .bind (fun _ => ?_)
  rcases hFids.lookup_cases fid with
    ⟨hNone, hNone'⟩ | ⟨state, state', hFid, hFid', hState⟩
  · rw [hNone, hNone']
    exact .answered hFids
  · rw [hFid, hFid']
    simp only [hState.path]
    cases loop.fs.read (access.hosts 0) state'.path with
    | none =>
        exact .answered hFids
    | some data =>
        exact .bind (fun _ => .answered hFids)

theorem sameOutcome_stat
    (hRecord : loop.RecordsFids)
    (hFids : SameFids fids fids')
    (fid : UInt32) :
    SameOutcome (loop.handleStat access fids fid)
      (loop.handleStat access fids' fid) := by
  unfold handleStat
  rw [lockFor_same hFids fid]
  refine .bind (fun _ => ?_)
  rcases hFids.lookup_cases fid with
    ⟨hNone, hNone'⟩ | ⟨state, state', hFid, hFid', hState⟩
  · rw [hNone, hNone']
    exact .answered hFids
  · rw [hFid, hFid']
    simp only [hState.path]
    refine .bind (fun found => ?_)
    cases found with
    | none =>
        exact .answered hFids
    | some inode =>
        simp only [hRecord state state' inode hState]
        exact .answered hFids

/- From the same fids a request ends in the same way. -/
theorem sameOutcome_handle
    (hRecord : loop.RecordsFids)
    (hFids : SameFids fids fids')
    (req : PseudoRequest) :
    SameOutcome (loop.handle access fids req)
      (loop.handle access fids' req) := by
  cases req with
  | tversion msize version =>
      exact .answered hFids
  | tattach fid afid uname aname =>
      exact sameOutcome_attach hFids fid
  | twalk fid newfid names =>
      exact sameOutcome_walk hFids fid newfid names
  | topen fid mode =>
      exact sameOutcome_open hFids fid mode
  | tread fid offset count =>
      exact sameOutcome_read hFids fid offset count
  | tstat fid =>
      exact sameOutcome_stat hRecord hFids fid
  | tclunk fid =>
      exact .answered (hFids.erase fid)
  | unsupported =>
      exact .answered hFids

/- A request that only looks leaves the fids the same. -/
theorem Effect.sameFids
    {req : PseudoRequest}
    {reply : Reply}
    (hEffect : loop.Effect access fids req fids' reply)
    (hLooks : req.Looks) :
    SameFids fids' fids := by
  cases hEffect with
  | opened hOpens hFid hFinds =>
      exact SameFids.insert_mode hFid _
  | attach | walk hCount hSteps hWalk | clunk =>
      exact hLooks.elim
  | version | openIgnored hOpens hFid | read hFid hData
  | stat hFid hStat | refused hRefusal =>
      exact .refl fids

end Loop

end Planten

------------------------------------------------------------
-- One Turn
------------------------------------------------------------

namespace Planten

namespace PseudoRequest

/- The requests that only look are those of other types. -/
theorem looks_of_decode
    {msgType : UInt8}
    {body : Bytes}
    {req : PseudoRequest}
    (hDecode : decode msgType body = .ok req)
    (hAttach : msgType ≠ TATTACH)
    (hWalk : msgType ≠ TWALK)
    (hClunk : msgType ≠ TCLUNK) :
    req.Looks := by
  rw [decode, if_neg hAttach, if_neg hWalk, if_neg hClunk]
    at hDecode
  split at hDecode
  · rcases ok_of_map hDecode with ⟨r, _, rfl⟩
    trivial
  split at hDecode
  · rcases ok_of_map hDecode with ⟨r, _, rfl⟩
    trivial
  split at hDecode
  · rcases ok_of_map hDecode with ⟨r, _, rfl⟩
    trivial
  split at hDecode
  · rcases ok_of_map hDecode with ⟨r, _, rfl⟩
    trivial
  cases hDecode
  trivial

end PseudoRequest

namespace PseudoServer

variable {Pid : Type} [DecidableEq Pid]
variable {pids : PidText Pid} {server : PseudoServer}
variable {fids fids' : FidTable}

theorem recordsFids
    (pids : PidText Pid)
    (server : PseudoServer) :
    (server.loop pids).RecordsFids := by
  intro state state' inode hState
  have hStatOf :
      ProcSrv.statOf state inode =
        ProcSrv.statOf state' inode := by
    rw [ProcSrv.statOf, ProcSrv.statOf, hState.qid]
  cases server with
  | procfs =>
      exact hStatOf
  | srvfs =>
      exact hStatOf
  | devfs =>
      rfl
  | netfs =>
      rfl

/- The answers are the same bytes, and leave the same fids. -/
def SameAnswer (r r' : FidTable × Bytes) : Prop :=
  SameFids r.1 r'.1 ∧ r.2 = r'.2

/- From the same fids a turn is answered in the same way. -/
theorem sameAnswer
    (pids : PidText Pid)
    (hFids : SameFids fids fids')
    (turn : Turn Pid server) :
    Option.Rel SameAnswer
      ((server.service pids).answer fids turn)
      ((server.service pids).answer fids' turn) := by
  simp only [Service.answer, service, serve]
  cases PseudoRequest.decode turn.msgType turn.body with
  | error err =>
      exact .none
  | ok req =>
      have hSame :
          SameOutcome
            ((server.loop pids).handle turn.env fids req)
            ((server.loop pids).handle turn.env fids' req) :=
        Loop.sameOutcome_handle (recordsFids pids server)
          hFids req
      rw [← handle_eq, ← handle_eq] at hSame
      revert hSame
      simp only
      generalize server.handle pids turn.env fids req = r
      generalize server.handle pids turn.env fids' req = r'
      intro hSame
      cases hSame with
      | panicked =>
          exact .none
      | @answered after after' reply hAfter =>
          simp only
          cases reply.frame turn.tag with
          | error cause =>
              exact .none
          | ok frame =>
              exact .some ⟨hAfter, rfl⟩

/- A turn that only looks, if answered, keeps the fids. -/
theorem sameFids_of_answer
    {turn : Turn Pid server}
    {frame : Bytes}
    (hAnswer :
      (server.service pids).answer fids turn =
        some (fids', frame))
    (hAttach : turn.msgType ≠ TATTACH)
    (hWalk : turn.msgType ≠ TWALK)
    (hClunk : turn.msgType ≠ TCLUNK) :
    SameFids fids' fids := by
  rcases (answer_eq_some frame).mp hAnswer with
    ⟨req, reply, hExchange, _⟩
  have hDecode := (exchange_eq_some.mp hExchange).1
  exact (effect_of_exchange hExchange).sameFids
    (PseudoRequest.looks_of_decode hDecode hAttach hWalk
      hClunk)

end PseudoServer

end Planten

------------------------------------------------------------
-- Runs without Them
------------------------------------------------------------

namespace Planten

namespace PseudoServer

variable {Pid : Type} [DecidableEq Pid]
variable (pids : PidText Pid) (server : PseudoServer)

/-
  A turn that is left out only looks, and does not end the
  connection.
-/
def Spared
    (conn : Option FidTable)
    (turn : Turn Pid server × Bool) : Prop :=
  turn.2 = false →
    (turn.1.msgType ≠ TATTACH ∧ turn.1.msgType ≠ TWALK ∧
        turn.1.msgType ≠ TCLUNK) ∧
      (conn.isSome →
        ((server.service pids).step conn turn.1).isSome)

/- Turns that only look can be left out of a run. -/
theorem erasure :
    Run.Erasure Prod.snd
      (Run.unmarked (server.service pids).step)
      (Run.unmarked (server.service pids).sent)
      (server.Spared pids) (Option.Rel SameFids) where
  kept := by
    rintro conn conn' ⟨turn, _⟩ _ hConn _
    cases hConn with
    | none =>
        exact ⟨.none, rfl⟩
    | some hFids =>
        have hAnswers := sameAnswer pids hFids turn
        simp only [Run.unmarked, Service.step, Service.sent,
          Option.bind_some]
        revert hAnswers
        generalize (server.service pids).answer _ turn = r
        generalize (server.service pids).answer _ turn = r'
        intro hAnswers
        cases hAnswers with
        | none =>
            exact ⟨.none, rfl⟩
        | some hSame =>
            exact ⟨.some hSame.1, congrArg some hSame.2⟩
  erased := by
    rintro conn conn' ⟨turn, _⟩ hOut hConn hSpared
    cases hConn with
    | none =>
        exact .none
    | some hFids =>
        rcases hSpared hOut with
          ⟨⟨hAttach, hWalk, hClunk⟩, hGoesOn⟩
        rcases Option.isSome_iff_exists.mp (hGoesOn rfl) with
          ⟨after, hStep⟩
        rcases Service.answer_of_step hStep with
          ⟨before, frame, hBefore, hAnswer⟩
        cases hBefore
        rw [Run.unmarked, hStep]
        exact .some ((sameFids_of_answer hAnswer hAttach
          hWalk hClunk).trans hFids)

/-
  Requests other than Tattach, Twalk and Tclunk decide
  nothing for the rest of a connection.  When any of them are
  left out of a run, told by their places, the other requests
  are sent the same bytes, and every fid names the same file
  with the same qid at the end.  Those left out must not have
  ended the connection.
-/
theorem others_decide_nothing
    (pids : PidText Pid)
    (server : PseudoServer)
    (turns : List (Turn Pid server × Bool))
    (hSpared :
      Run.Always (Run.unmarked (server.service pids).step)
        (server.Spared pids) (some []) turns) :
    Run.outputsOf Prod.snd
        (Run.unmarked (server.service pids).step)
        (Run.unmarked (server.service pids).sent) (some [])
        turns =
      Run.outputs (server.service pids).step
        (server.service pids).sent (some [])
        ((turns.filter Prod.snd).map Prod.fst) ∧
    Option.Rel SameFids
      ((server.service pids).run (turns.map Prod.fst))
      ((server.service pids).run
        ((turns.filter Prod.snd).map Prod.fst)) := by
  have hStart :
      Option.Rel SameFids (some []) (some []) :=
    .some (.refl [])
  have hOutputs :=
    (erasure pids server).outputs hStart hSpared
  have hFinal := (erasure pids server).final hStart hSpared
  rw [Run.outputs_unmarked] at hOutputs
  have hRun (turns : List (Turn Pid server × Bool)) :
      Run.final (Run.unmarked (server.service pids).step)
          (some []) turns =
        (server.service pids).run (turns.map Prod.fst) :=
    Run.final_unmarked (server.service pids).step (some [])
      turns
  exact ⟨hOutputs, hRun turns ▸ hRun _ ▸ hFinal⟩

/- Of two opens the first may be left out before a read. -/
theorem others_decide_nothing_of_openTurn :
    Run.outputsOf Prod.snd
        (Run.unmarked
          (service ProcFs.numberPids .srvfs).step)
        (Run.unmarked
          (service ProcFs.numberPids .srvfs).sent) (some [])
        [(attachTurn, true), (openTurn, false),
          (openTurn, true), (readTurn, true)] =
      Run.outputs (service ProcFs.numberPids .srvfs).step
        (service ProcFs.numberPids .srvfs).sent (some [])
        [attachTurn, openTurn, readTurn] ∧
    Option.Rel SameFids
      ((service ProcFs.numberPids .srvfs).run
        [attachTurn, openTurn, openTurn, readTurn])
      ((service ProcFs.numberPids .srvfs).run
        [attachTurn, openTurn, readTurn]) := by
  have hAnswered :
      ((service ProcFs.numberPids .srvfs).step
        ((service ProcFs.numberPids .srvfs).step (some [])
          attachTurn) openTurn).isSome := by
    decide +kernel
  exact others_decide_nothing ProcFs.numberPids .srvfs
    [(attachTurn, true), (openTurn, false), (openTurn, true),
      (readTurn, true)]
    ⟨fun hOut => (nomatch hOut),
      fun _ => ⟨by decide, fun _ => hAnswered⟩,
      fun hOut => (nomatch hOut),
      fun hOut => (nomatch hOut), trivial⟩

end PseudoServer

end Planten
