import Planten.Library.Simulations
import Planten.NineP.Streams
import Planten.Services.Peers

/-
  The streams of the five servers.

  The bytes of a connection arrive in parts of any size.
  What a server does on them, and what it sends, is what it
  does on the frames of the whole stream, one turn for each;
  how the stream is cut makes no difference.  So what holds
  of the turns of a connection holds of its bytes.

  Key definitions include:
    * `Service.turnsFrom`
    * `Service.deliverAll`
    * `Service.Follows`

  Key theorems include:
    * `Service.follows_handleClient`
    * `Service.Follows.append`
    * `Service.follows_deliverAll`
    * `FileServer.serves_frames`
-/

------------------------------------------------------------
-- Streams and Turns
------------------------------------------------------------

namespace Planten

namespace Service

variable (S : Service) (envs : Nat → S.Env)

/- The turns that messages are, from one of them on. -/
def turnsFrom :
    Nat → List RawMessage → List (ServiceTurn S.Env)
| _, [] => []
| n, msg :: msgs =>
    ⟨envs n, msg.msgType, msg.tag, msg.body⟩ ::
      turnsFrom (n + 1) msgs

/- The bytes that go out in answer to turns. -/
def bytesFor
    (conn : Option FidTable)
    (turns : List (ServiceTurn S.Env)) : Bytes :=
  (Run.outputs S.step S.sent conn
    turns).reduceOption.flatten

/- The parts of a stream, as they arrive. -/
def deliverAll (peer : Peer) : List Bytes → Peer × Bytes
| [] => (peer, [])
| part :: parts =>
    let (peer, bytes) := S.deliver envs peer part
    let (peer, more) := deliverAll peer parts
    (peer, bytes ++ more)

/-
  A connection did what it does on these messages, and on an
  error behind them.  An error that is not the end of what
  has arrived ends it.
-/
structure Follows
    (fids : FidTable)
    (n : Nat)
    (msgs : List RawMessage)
    (rest : Bytes)
    (err : IoError)
    (after : Peer × Bytes) : Prop where
  held :
    after.1.fids =
      if err = IoError.eof then
        Run.final S.step (some fids) (S.turnsFrom envs n msgs)
      else
        none
  sent :
    after.2 = S.bytesFor (some fids) (S.turnsFrom envs n msgs)
  waits :
    after.1.fids.isSome →
      after.1.inbox = rest ∧ after.1.turns = n + msgs.length

end Service

end Planten

------------------------------------------------------------
-- One Part
------------------------------------------------------------

namespace Planten

open Decoder (Drains)

namespace Service

variable {S : Service} {envs : Nat → S.Env}

theorem bytesFor_cons
    (conn : Option FidTable)
    (turn : ServiceTurn S.Env)
    (turns : List (ServiceTurn S.Env)) :
    S.bytesFor conn (turn :: turns) =
      (S.sent conn turn).getD [] ++
        S.bytesFor (S.step conn turn) turns := by
  unfold bytesFor
  rw [Run.outputs]
  cases S.sent conn turn <;> rfl

/- A connection that has ended sends nothing. -/
theorem run_of_ended (turns : List (ServiceTurn S.Env)) :
    Run.final S.step none turns = none ∧
      S.bytesFor none turns = [] := by
  induction turns with
  | nil =>
      exact ⟨rfl, rfl⟩
  | cons turn turns ih =>
      exact ⟨ih.1, (bytesFor_cons none turn turns).trans ih.2⟩

theorem bytesFor_append
    (conn : Option FidTable)
    (turns more : List (ServiceTurn S.Env)) :
    S.bytesFor conn (turns ++ more) =
      S.bytesFor conn turns ++
        S.bytesFor (Run.final S.step conn turns) more := by
  induction turns generalizing conn with
  | nil =>
      rfl
  | cons turn turns ih =>
      rw [List.cons_append, bytesFor_cons, bytesFor_cons, ih,
        List.append_assoc, Run.final_cons]

theorem turnsFrom_append
    (n : Nat)
    (msgs more : List RawMessage) :
    S.turnsFrom envs n (msgs ++ more) =
      S.turnsFrom envs n msgs ++
        S.turnsFrom envs (n + msgs.length) more := by
  induction msgs generalizing n with
  | nil =>
      rfl
  | cons msg msgs ih =>
      rw [List.cons_append, turnsFrom, ih, turnsFrom,
        List.cons_append, List.length_cons,
        Nat.add_right_comm n 1, Nat.add_assoc n]

/- The loop takes one turn for each frame that is there. -/
theorem follows_handleClient
    {inbox rest : Bytes}
    {msgs : List RawMessage}
    {err : IoError}
    (hDrains :
      Drains RawMessage.readFrom inbox msgs rest err)
    (fids : FidTable)
    (n : Nat)
    {fuel : Nat}
    (hFuel : inbox.length < fuel) :
    S.Follows envs fids n msgs rest err
      (S.handleClient envs fuel ⟨some fids, n, inbox⟩) := by
  induction hDrains generalizing fids n fuel with
  | @stopped inbox err hRun =>
      have hKind := failsIn_readFrom _ _ hRun
      cases fuel with
      | zero =>
          omega
      | succ fuel =>
          simp only [handleClient, hRun]
          by_cases hEof : err = IoError.eof
          · rw [if_pos (hKind.mpr hEof)]
            refine ⟨(if_pos hEof).symm, rfl, ?_⟩
            intro _
            exact ⟨rfl, rfl⟩
          · rw [if_neg (fun h => hEof (hKind.mp h))]
            refine ⟨(if_neg hEof).symm, rfl, ?_⟩
            intro hOpen
            cases hOpen
  | @more inbox mid rest msg msgs err hRun hTail ih =>
      cases fuel with
      | zero =>
          omega
      | succ fuel =>
          have hShorter := shrinks_readFrom _ _ _ hRun
          simp only [handleClient, hRun]
          cases hAnswer :
              S.answer fids
                ⟨envs n, msg.msgType, msg.tag, msg.body⟩ with
          | none =>
              have hStep :
                  S.step (some fids)
                    ⟨envs n, msg.msgType, msg.tag,
                      msg.body⟩ = none := by
                simp [step, hAnswer]
              have hSent :
                  S.sent (some fids)
                    ⟨envs n, msg.msgType, msg.tag,
                      msg.body⟩ = none := by
                simp [sent, hAnswer]
              have hEnded :=
                run_of_ended (S.turnsFrom envs (n + 1) msgs)
              refine ⟨?_, ?_, ?_⟩
              · rw [turnsFrom, Run.final_cons, hStep,
                  hEnded.1, ite_self]
              · rw [turnsFrom, bytesFor_cons, hStep, hSent,
                  hEnded.2]
                rfl
              · intro hOpen
                cases hOpen
          | some answered =>
              rcases answered with ⟨fids', frame⟩
              have hStep :
                  S.step (some fids)
                    ⟨envs n, msg.msgType, msg.tag,
                      msg.body⟩ = some fids' := by
                simp [step, hAnswer]
              have hSent :
                  S.sent (some fids)
                    ⟨envs n, msg.msgType, msg.tag,
                      msg.body⟩ = some frame := by
                simp [sent, hAnswer]
              have hRest :=
                ih fids' (n + 1)
                  (by omega : mid.length < fuel)
              refine ⟨?_, ?_, ?_⟩
              · rw [turnsFrom, Run.final_cons, hStep]
                exact hRest.held
              · rw [turnsFrom, bytesFor_cons, hStep, hSent,
                  ← hRest.sent]
                rfl
              · intro hOpen
                have hWaits := hRest.waits hOpen
                refine ⟨hWaits.1, hWaits.2.trans ?_⟩
                rw [List.length_cons]
                omega

end Service

end Planten

------------------------------------------------------------
-- All Parts
------------------------------------------------------------

namespace Planten

open Decoder (Drains)

namespace Service

variable {S : Service} {envs : Nat → S.Env}

/- A connection that has ended does not start again. -/
theorem deliverAll_of_ended
    {peer : Peer}
    (hFids : peer.fids = none)
    (parts : List Bytes) :
    (S.deliverAll envs peer parts).1.fids = none ∧
      (S.deliverAll envs peer parts).2 = [] := by
  induction parts generalizing peer with
  | nil =>
      exact ⟨hFids, rfl⟩
  | cons part parts ih =>
      have hEnded := @deliver_of_ended S envs _ hFids part
      simp only [deliverAll, hEnded]
      exact ih rfl

namespace Follows

variable {fids fids' : FidTable} {n : Nat}
variable {msgs msgs' : List RawMessage}
variable {rest rest' : Bytes} {err : IoError}
variable {before after : Peer × Bytes}

/- What comes next is followed from where the first ends. -/
theorem append
    (hFirst :
      S.Follows envs fids n msgs rest IoError.eof before)
    (hOpen : before.1.fids = some fids')
    (hSecond :
      S.Follows envs fids' (n + msgs.length) msgs' rest' err
        after) :
    S.Follows envs fids n (msgs ++ msgs') rest' err
      (after.1, before.2 ++ after.2) := by
  have hFinal := hFirst.held
  rw [if_pos rfl, hOpen] at hFinal
  refine ⟨?_, ?_, ?_⟩
  · rw [turnsFrom_append, Run.final_append, ← hFinal]
    exact hSecond.held
  · rw [turnsFrom_append, bytesFor_append, ← hFinal,
      hFirst.sent, hSecond.sent]
  · intro hStays
    have hWaits := hSecond.waits hStays
    refine ⟨hWaits.1, hWaits.2.trans ?_⟩
    rw [List.length_append, Nat.add_assoc]

/- Behind a turn without an answer nothing happens. -/
theorem append_of_ended
    (hFirst :
      S.Follows envs fids n msgs rest IoError.eof before)
    (hEnded : before.1.fids = none)
    (msgs' : List RawMessage)
    (rest' : Bytes)
    (err : IoError)
    (parts : List Bytes) :
    S.Follows envs fids n (msgs ++ msgs') rest' err
      ((S.deliverAll envs before.1 parts).1,
        before.2 ++ (S.deliverAll envs before.1 parts).2) := by
  have hLast := @deliverAll_of_ended S envs _ hEnded parts
  have hAfter :=
    run_of_ended (S.turnsFrom envs (n + msgs.length) msgs')
  have hFinal := hFirst.held
  rw [if_pos rfl, hEnded] at hFinal
  refine ⟨?_, ?_, ?_⟩
  · rw [turnsFrom_append, Run.final_append, ← hFinal,
      hAfter.1, ite_self]
    exact hLast.1
  · rw [turnsFrom_append, bytesFor_append, ← hFinal,
      hAfter.2, List.append_nil, ← hFirst.sent, hLast.2,
      List.append_nil]
  · intro hStays
    rw [hLast.1] at hStays
    cases hStays

/- Behind a header that is too small nothing happens. -/
theorem stays_ended
    (hFirst : S.Follows envs fids n msgs rest err before)
    (hOther : err ≠ IoError.eof)
    (rest' : Bytes)
    (parts : List Bytes) :
    S.Follows envs fids n msgs rest' err
      ((S.deliverAll envs before.1 parts).1,
        before.2 ++ (S.deliverAll envs before.1 parts).2) := by
  have hEnded := hFirst.held
  rw [if_neg hOther] at hEnded
  have hLast := @deliverAll_of_ended S envs _ hEnded parts
  refine ⟨?_, ?_, ?_⟩
  · rw [if_neg hOther]
    exact hLast.1
  · rw [hLast.2, List.append_nil]
    exact hFirst.sent
  · intro hStays
    rw [hLast.1] at hStays
    cases hStays

end Follows

/-
  How the parts are cut makes no difference.  By induction
  on them: the bytes that wait are no whole frame.
-/
theorem follows_deliverAll
    (parts : List Bytes)
    (fids : FidTable)
    (n : Nat)
    {inbox : Bytes}
    (hWaits :
      Drains RawMessage.readFrom inbox [] inbox
        IoError.eof) :
    ∃ msgs rest err,
      Drains RawMessage.readFrom (inbox ++ parts.flatten)
        msgs rest err ∧
      S.Follows envs fids n msgs rest err
        (S.deliverAll envs ⟨some fids, n, inbox⟩
          parts) := by
  induction parts generalizing fids n inbox with
  | nil =>
      refine ⟨[], inbox, IoError.eof, ?_, ?_, rfl, ?_⟩
      · rw [List.flatten_nil, List.append_nil]
        exact hWaits
      · exact (if_pos rfl).symm
      · intro _
        exact ⟨rfl, rfl⟩
  | cons part parts ih =>
      rw [List.flatten_cons, ← List.append_assoc]
      rcases Decoder.exists_drains shrinks_readFrom
          (inbox ++ part) with ⟨msgs, rest, err, hPart⟩
      have hFirst :
          S.Follows envs fids n msgs rest err
            (S.deliver envs ⟨some fids, n, inbox⟩ part) :=
        follows_handleClient hPart fids n (Nat.lt_succ_self _)
      by_cases hEof : err = IoError.eof
      · subst hEof
        cases hOpen :
            (S.deliver envs ⟨some fids, n, inbox⟩
              part).1.fids with
        | none =>
            rcases Decoder.exists_drains shrinks_readFrom
                (rest ++ parts.flatten) with
              ⟨msgs', rest', err', hMore⟩
            exact ⟨msgs ++ msgs', rest', err',
              extends_readFrom.drains_append hPart hMore,
              hFirst.append_of_ended hOpen _ _ _ parts⟩
        | some fids' =>
            have hWaiting :=
              hFirst.waits (by rw [hOpen]; rfl)
            have hPeer :
                (S.deliver envs ⟨some fids, n, inbox⟩
                    part).1 =
                  ⟨some fids', n + msgs.length, rest⟩ := by
              rw [← hOpen, ← hWaiting.1, ← hWaiting.2]
            rcases ih fids' (n + msgs.length) hPart.rest with
              ⟨msgs', rest', err', hMore, hSecond⟩
            rw [← hPeer] at hSecond
            exact ⟨msgs ++ msgs', rest', err',
              extends_readFrom.drains_append hPart hMore,
              hFirst.append hOpen hSecond⟩
      · exact ⟨msgs, rest ++ parts.flatten, err,
          extends_readFrom.drains_of_settled settles_readFrom
            hPart hEof parts.flatten,
          hFirst.stays_ended hEof _ parts⟩

end Service

end Planten

------------------------------------------------------------
-- The Five Servers
------------------------------------------------------------

namespace Planten

variable {Pid : Type} [DecidableEq Pid]

/-
  Whatever parts the bytes of a connection come in, each of
  the servers takes one turn for each frame of the whole
  stream, in order, and sends what the turns send, until one
  of them is not answered or a header is too small.  An
  unfinished frame at the end is waited for.
-/
theorem FileServer.serves_frames
    (hasher : Hasher)
    (pids : PidText Pid)
    (server : FileServer)
    (envs : Nat → (server.service hasher pids).Env)
    (parts : List Bytes) :
    ∃ msgs rest err,
      Decoder.Drains RawMessage.readFrom parts.flatten msgs
        rest err ∧
      (server.service hasher pids).Follows envs [] 0 msgs
        rest err
        ((server.service hasher pids).deliverAll envs
          Service.accepted parts) :=
  Service.follows_deliverAll parts [] 0
    (.stopped rfl : Decoder.Drains _ [] [] [] IoError.eof)

end Planten
