import Planten.Library.Journal
import Planten.Services.Service

/-
  The dialogues of the pseudo servers.

  A connection is a dialogue of requests and replies.  It
  ends with a frame that cannot be read and with a panic.
  What was said before is kept in a journal, so that what a
  server answers now can be compared with it.

  Key definitions include:
    * `PseudoServer`
    * `PseudoServer.exchange`
    * `PseudoServer.run`
    * `PseudoServer.track`

  Key theorems include:
    * `PseudoServer.service_eq`
    * `PseudoServer.map_state_run`
    * `PseudoServer.effect_of_exchange`
    * `PseudoServer.exchange_or_hazard`
    * `Loop.Effect.tracked`
-/

------------------------------------------------------------
-- The Pseudo Servers
------------------------------------------------------------

namespace Planten

inductive PseudoServer where
| procfs
| srvfs
| devfs
| netfs
deriving DecidableEq, Repr

namespace PseudoServer

/- What a call of the file system reads of the host. -/
def Reading (Pid : Type) : PseudoServer → Type
| procfs => ProcTable Pid
| srvfs => SrvRoot
| devfs => Nat → UInt8
| netfs => NetHost

variable {Pid : Type} [DecidableEq Pid]

/- The file system of a server. -/
def fs
    (pids : PidText Pid) :
    (server : PseudoServer) →
      FsServer (server.Reading Pid)
| procfs => ProcFs.fs pids
| srvfs => SrvFs.fs
| devfs => DevFs.fs
| netfs => NetFs.fs

/- The arms of the request loop of a server. -/
def handle
    (pids : PidText Pid) :
    (server : PseudoServer) →
      Access (server.Reading Pid) → FidTable →
        PseudoRequest → Except Panic (FidTable × Reply)
| procfs => ProcSrv.handle (ProcFs.fs pids)
| srvfs => ProcSrv.handle SrvFs.fs
| devfs => DevNet.handle "dev" DevFs.fs
| netfs => DevNet.handle "net" NetFs.fs

/- A frame, and what its handler finds. -/
abbrev Turn
    (Pid : Type)
    (server : PseudoServer) : Type :=
  ServiceTurn (Access (server.Reading Pid))

/-
  One turn: the fid table after it, the request and the
  reply, unless it ends the connection.
-/
def exchange
    (pids : PidText Pid)
    (server : PseudoServer)
    (fids : FidTable)
    (turn : Turn Pid server) :
    Option (FidTable × PseudoRequest × Reply) :=
  match PseudoRequest.decode turn.msgType turn.body with
  | .error _ => none
  | .ok req =>
      match server.handle pids turn.env fids req with
      | .error _ => none
      | .ok (fids', reply) =>
          match reply.frame turn.tag with
          | .error _ => none
          | .ok _ => some (fids', req, reply)

/- What a connection has said, the latest first. -/
abbrev Said : Type :=
  List (PseudoRequest × Reply)

/- The fid table of a connection, and what it has said. -/
abbrev Dialogue : Type :=
  Journal FidTable (PseudoRequest × Reply)

/- A connection after some turns. -/
def run
    (pids : PidText Pid)
    (server : PseudoServer)
    (turns : List (Turn Pid server)) : Option Dialogue :=
  Journal.run (server.exchange pids) [] turns

/- The server as it is run. -/
def service
    (pids : PidText Pid)
    (server : PseudoServer) : Service :=
  ⟨Access (server.Reading Pid), Access.poisoned,
    fun access fids =>
      serve (server.handle pids access fids)⟩

/- The server as one of the five. -/
def fileServer : PseudoServer → FileServer
| procfs => .procfs
| srvfs => .srvfs
| devfs => .devfs
| netfs => .netfs

/- The form of the request loop of a server. -/
def loop
    (pids : PidText Pid) :
    (server : PseudoServer) → Loop (server.Reading Pid)
| procfs => ProcFs.loop pids
| srvfs => SrvFs.loop
| devfs => DevFs.loop
| netfs => NetFs.loop

end PseudoServer

end Planten

------------------------------------------------------------
-- Exchanges
------------------------------------------------------------

namespace Planten

namespace PseudoServer

variable {Pid : Type} [DecidableEq Pid]
variable (pids : PidText Pid) (server : PseudoServer)

@[simp] theorem fs_loop :
    (server.loop pids).fs = server.fs pids := by
  cases server <;> rfl

theorem handle_eq
    (access : Access (server.Reading Pid))
    (fids : FidTable)
    (req : PseudoRequest) :
    server.handle pids access fids req =
      (server.loop pids).handle access fids req := by
  cases server with
  | procfs =>
      exact ProcSrv.handle_eq (ProcFs.statLaw pids) access
        fids req
  | srvfs =>
      exact ProcSrv.handle_eq SrvFs.statLaw access fids req
  | devfs =>
      exact DevNet.handle_eq DevFs.statLaw "dev" access fids
        req
  | netfs =>
      exact DevNet.handle_eq NetFs.statLaw "net" access fids
        req

/- The servers are services, as named there. -/
theorem service_eq
    (hasher : Hasher) :
    server.fileServer.service hasher pids =
      server.service pids := by
  cases server <;> rfl

variable {pids server}
variable {fids fids' : FidTable}
variable {turn : Turn Pid server}
variable {req : PseudoRequest} {reply : Reply}

/- The exchange of a turn is what is read and framed. -/
theorem exchange_eq_some :
    server.exchange pids fids turn =
        some (fids', req, reply) ↔
      PseudoRequest.decode turn.msgType turn.body = .ok req ∧
        server.handle pids turn.env fids req =
          .ok (fids', reply) ∧
        ∃ frame, reply.frame turn.tag = .ok frame := by
  unfold exchange
  cases PseudoRequest.decode turn.msgType turn.body with
  | error err =>
      simp
  | ok req' =>
      simp only [Except.ok.injEq]
      cases hHandle :
          server.handle pids turn.env fids req' with
      | error cause =>
          constructor
          · intro hNone
            cases hNone
          · rintro ⟨rfl, hOk, _⟩
            cases hHandle.symm.trans hOk
      | ok answer =>
          rcases answer with ⟨after, said⟩
          cases hFrame : said.frame turn.tag with
          | error cause =>
              simp only [hFrame]
              constructor
              · intro hNone
                cases hNone
              · rintro ⟨rfl, hOk, frame, hFramed⟩
                cases hHandle.symm.trans hOk
                cases hFrame.symm.trans hFramed
          | ok frame =>
              simp only [hFrame]
              constructor
              · intro hSome
                cases hSome
                exact ⟨rfl, hHandle, frame, hFrame⟩
              · rintro ⟨rfl, hOk, _⟩
                cases hHandle.symm.trans hOk
                rfl

/- What is sent in answer to a turn is its reply, framed. -/
theorem answer_eq_some
    (frame : Bytes) :
    (server.service pids).answer fids turn =
        some (fids', frame) ↔
      ∃ req reply,
        server.exchange pids fids turn =
            some (fids', req, reply) ∧
          reply.frame turn.tag = .ok frame := by
  constructor
  · intro hAnswer
    have hServe := Service.answer_eq_some hAnswer
    simp only [service, serve] at hServe
    cases hDecode :
        PseudoRequest.decode turn.msgType turn.body with
    | error err =>
        rw [hDecode] at hServe
        cases hServe
    | ok req =>
        simp only [hDecode] at hServe
        cases hHandle :
            server.handle pids turn.env fids req with
        | error cause =>
            simp only [hHandle] at hServe
            cases hServe
        | ok answer =>
            rcases answer with ⟨after, reply⟩
            simp only [hHandle] at hServe
            cases hFrame : reply.frame turn.tag with
            | error cause =>
                simp only [hFrame] at hServe
                cases hServe
            | ok frame' =>
                simp only [hFrame] at hServe
                cases hServe
                exact ⟨req, reply, exchange_eq_some.mpr
                  ⟨hDecode, hHandle, frame, hFrame⟩, hFrame⟩
  · rintro ⟨req, reply, hExchange, hFrame⟩
    rcases exchange_eq_some.mp hExchange with
      ⟨hDecode, hHandle, _⟩
    simp only [Service.answer, service, serve, hDecode,
      hHandle, hFrame]
    rfl

/- A turn ends the connection when nothing is exchanged. -/
theorem map_answer
    (fids : FidTable)
    (turn : Turn Pid server) :
    ((server.service pids).answer fids turn).map Prod.fst =
      (server.exchange pids fids turn).map Prod.fst := by
  apply Option.ext
  intro fids'
  simp only [Option.map_eq_some_iff]
  constructor
  · rintro ⟨⟨after, frame⟩, hAnswer, rfl⟩
    rcases (answer_eq_some frame).mp hAnswer with
      ⟨req, reply, hExchange, _⟩
    exact ⟨_, hExchange, rfl⟩
  · rintro ⟨⟨after, req, reply⟩, hExchange, rfl⟩
    rcases (exchange_eq_some.mp hExchange).2.2 with
      ⟨frame, hFrame⟩
    exact ⟨(after, frame), (answer_eq_some frame).mpr
      ⟨req, reply, hExchange, hFrame⟩, rfl⟩

/- The dialogues of a server are the runs of the service. -/
theorem map_state_run
    (turns : List (Turn Pid server)) :
    (server.run pids turns).map Journal.state =
      (server.service pids).run turns := by
  have hStep :
      Journal.plainStep (server.exchange pids) =
        (server.service pids).step := by
    funext conn turn
    cases conn with
    | none =>
        rfl
    | some fids =>
        exact (map_answer fids turn).symm
  rw [run, Journal.map_state_run, hStep]
  rfl

/- An exchange is one of the effects of the loop. -/
theorem effect_of_exchange
    (hExchange :
      server.exchange pids fids turn =
        some (fids', req, reply)) :
    (server.loop pids).Effect turn.env fids req fids'
      reply := by
  have hHandle := (exchange_eq_some.mp hExchange).2.1
  rw [handle_eq] at hHandle
  exact Loop.effect_of_handle hHandle

/- A request is answered unless it runs into a hazard. -/
theorem exchange_or_hazard
    (hDecode :
      PseudoRequest.decode turn.msgType turn.body =
        .ok req) :
    ((server.loop pids).Hazard turn.env fids req ∧
        server.exchange pids fids turn = none) ∨
      ¬ (server.loop pids).Hazard turn.env fids req ∧
        ∃ fids' reply,
          server.exchange pids fids turn =
            some (fids', req, reply) := by
  have hPanics :=
    @Loop.panics_iff_hazard _ (server.loop pids) turn.env
      fids req turn.tag
      (PseudoRequest.length_names_of_decode hDecode)
  cases hRespond :
      (server.loop pids).respond turn.env fids turn.tag
        req with
  | error cause =>
      refine Or.inl ⟨hPanics.mp ⟨cause, hRespond⟩, ?_⟩
      cases hExchange : server.exchange pids fids turn with
      | none =>
          rfl
      | some said =>
          rcases said with ⟨fids', req', reply⟩
          rcases exchange_eq_some.mp hExchange with
            ⟨hDecode', hHandle, frame, hFrame⟩
          cases hDecode.symm.trans hDecode'
          rw [handle_eq] at hHandle
          rw [Loop.respond_of_ok turn.tag hHandle] at hRespond
          simp only [hFrame] at hRespond
          cases hRespond
  | ok sent =>
      refine Or.inr ⟨?_, ?_⟩
      · intro hHazard
        rcases hPanics.mpr hHazard with ⟨cause, hError⟩
        cases hRespond.symm.trans hError
      · rw [Loop.respond, bind_eq_ok_iff] at hRespond
        rcases hRespond with ⟨⟨fids', reply⟩, hHandle, hSent⟩
        simp only [bind_eq_ok_iff] at hSent
        rcases hSent with ⟨frame, hFrame, _⟩
        rw [← handle_eq] at hHandle
        exact ⟨fids', reply, exchange_eq_some.mpr
          ⟨hDecode, hHandle, frame, hFrame⟩⟩

end PseudoServer

end Planten

------------------------------------------------------------
-- Tracked Bindings
------------------------------------------------------------

namespace Planten

namespace PseudoServer

variable {α : Type}

/-
  What is known of a fid after an exchange.  An attach gives
  it a value, a walk one that may depend on the value of the
  fid it starts from, and a clunk takes it away.
-/
def trackAfter
    (onAttach : Qid → α)
    (onWalk :
      Option α → List String → List Qid → Option α)
    (before : UInt32 → Option α)
    (fid : UInt32) : PseudoRequest × Reply → Option α
| (.tattach fid' _ _ _, .rattach qid) =>
    if fid' = fid then some (onAttach qid) else before fid
| (.twalk fid' newfid names, .rwalk qids) =>
    if newfid = fid then
      onWalk (before fid') names qids
    else
      before fid
| (.tclunk fid', .rclunk) =>
    if fid' = fid then none else before fid
| _ => before fid

def track
    (onAttach : Qid → α)
    (onWalk :
      Option α → List String → List Qid → Option α) :
    Said → UInt32 → Option α
| [], _ => none
| entry :: said, fid =>
    trackAfter onAttach onWalk
      (track onAttach onWalk said) fid entry

end PseudoServer

variable {H α : Type}
variable {loop : Loop H} {access : Access H}
variable {fids fids' : FidTable} {req : PseudoRequest}
variable {reply : Reply} {said : PseudoServer.Said}

open PseudoServer (track)

/-
  What relates the fids of a table to what is known of them
  is kept by an exchange, if it is kept where fids are bound.
-/
theorem Loop.Effect.tracked
    {onAttach : Qid → α}
    {onWalk :
      Option α → List String → List Qid → Option α}
    {P : Option FidState → Option α → Prop}
    (hEffect : loop.Effect access fids req fids' reply)
    (hBefore :
      ∀ fid,
        P (fids.lookup fid) (track onAttach onWalk said fid))
    (hNone : P none none)
    (hOpens :
      ∀ state mode a,
        P (some state) a →
          P (some { state with openMode := mode }) a)
    (hAttach :
      P (some (FidState.new "/" loop.rootQid))
        (some (onAttach loop.rootQid)))
    (hWalk :
      ∀ fid newfid names qids,
        req = .twalk fid newfid names →
          qids.length = names.length →
          walkAlong loop.fs access.hosts 0 names
              (loop.basePath fids fid) [] =
            .ok (some (names.foldl resolvePath
              (loop.basePath fids fid), qids)) →
          P (some (FidState.new
              (names.foldl resolvePath
                (loop.basePath fids fid))
              (qids.getLast?.getD loop.rootQid)))
            (onWalk (track onAttach onWalk said fid) names
              qids))
    (fid : UInt32) :
    P (fids'.lookup fid)
      (track onAttach onWalk ((req, reply) :: said) fid) := by
  rw [track]
  cases hEffect with
  | version | openIgnored hIgnores hFid | read hFid hData
  | stat hFid hStat =>
      exact hBefore fid
  | refused hRefusal =>
      cases req <;> exact hBefore fid
  | @attach fid' =>
      rw [KeyMap.lookup_insert, PseudoServer.trackAfter]
      by_cases hSame : fid = fid'
      · rw [if_pos hSame, if_pos hSame.symm]
        exact hAttach
      · rw [if_neg hSame, if_neg (Ne.symm hSame)]
        exact hBefore fid
  | @walk fid' newfid names qids hCount hSteps hWalks =>
      rw [KeyMap.lookup_insert, PseudoServer.trackAfter]
      by_cases hSame : fid = newfid
      · rw [if_pos hSame, if_pos hSame.symm]
        exact hWalk fid' newfid names qids rfl hCount hWalks
      · rw [if_neg hSame, if_neg (Ne.symm hSame)]
        exact hBefore fid
  | @opened fid' mode state hLooks hFid =>
      change P _ (track onAttach onWalk said fid)
      rw [KeyMap.lookup_insert]
      split
      · rename_i hSame
        apply hOpens
        rw [← hFid, ← hSame]
        exact hBefore fid
      · exact hBefore fid
  | @clunk fid' =>
      rw [KeyMap.lookup_erase, PseudoServer.trackAfter]
      by_cases hSame : fid = fid'
      · rw [if_pos hSame, if_pos hSame.symm]
        exact hNone
      · rw [if_neg hSame, if_neg (Ne.symm hSame)]
        exact hBefore fid

end Planten
