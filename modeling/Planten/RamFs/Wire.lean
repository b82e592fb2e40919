import Planten.Library.Simulations
import Planten.NineP.Streams
import Planten.RamFs.EndToEnd

/-
  A server whose connections are streams of bytes.

  Bytes arrive on a connection in parts of any size, in any
  order with those of other connections, and a part may hold
  several frames or a piece of one.  What the server does is
  a run of whole requests: those of one connection are the
  frames of its stream, in order, none lost and none twice.

  Key definitions include:
    * `Arrival`
    * `Wire.step`, `Wire.sent`
    * `streamOf`, `requestsOf`
    * `Peer.Served`
    * `Wire.Framed`

  Key theorems include:
    * `Peer.served_handleClient`
    * `Wire.framed_step`
    * `Wire.framed_run`
-/

------------------------------------------------------------
-- Arrivals
------------------------------------------------------------

namespace Planten

/- A server, and the bytes each connection has not read. -/
structure Wire where
  srv : Server
  inboxes : Nat → Bytes

/-
  What arrives: a client connects or hangs up, or some bytes
  come in.  The clock readings are those of the requests that
  the bytes complete.
-/
inductive Arrival where
| accept (conn : Nat)
| hangup (conn : Nat)
| bytes (conn : Nat) (part : Bytes) (clock : Clock)

/- The connection of an arrival. -/
def Arrival.conn : Arrival → Nat
| .accept conn => conn
| .hangup conn => conn
| .bytes conn _ _ => conn

namespace Wire

variable (hasher : Hasher)

/- A thread wakes up on the bytes of its connection. -/
def wake
    (w : Wire)
    (conn : Nat)
    (part : Bytes)
    (clock : Clock) : Peer × Bytes :=
  Peer.deliver hasher conn clock ⟨w.srv, w.inboxes conn⟩ part

/-
  A new connection starts with no bytes.  Bytes that no
  thread reads any more stay where they are.
-/
def step
    (w : Wire) : Arrival → Wire
| .accept conn =>
    if (w.srv.conns conn).isSome then
      w
    else
      ⟨w.srv.step hasher (.accept conn),
        Function.update w.inboxes conn []⟩
| .hangup conn =>
    { w with srv := w.srv.step hasher (.close conn) }
| .bytes conn part clock =>
    let (peer, _) := w.wake hasher conn part clock
    ⟨peer.srv, Function.update w.inboxes conn peer.inbox⟩

/- The bytes that go out on the connection of an arrival. -/
def sent
    (w : Wire) : Arrival → Bytes
| .bytes conn part clock =>
    (w.wake hasher conn part clock).2
| _ => []

end Wire

/- All the bytes that arrive on a connection. -/
def streamOf (conn : Nat) (arrivals : List Arrival) : Bytes :=
  arrivals.flatMap (fun arrival =>
    match arrival with
    | .bytes conn' part _ => if conn' = conn then part else []
    | _ => [])

/- What a message of a stream asks for. -/
def RawMessage.message (msg : RawMessage) : Message :=
  ⟨msg.msgType, msg.tag, msg.body⟩

/- The messages of a connection that were handled. -/
def requestsOf
    (conn : Nat)
    (events : List Event) : List Message :=
  events.filterMap (fun event =>
    match event with
    | .request conn' msgType tag body _ =>
        if conn' = conn then
          some ⟨msgType, tag, body⟩
        else
          none
    | _ => none)

end Planten

------------------------------------------------------------
-- Frames of a Stream
------------------------------------------------------------

namespace Planten

open Decoder (Drains)

theorem requestsOf_append
    (conn : Nat)
    (events events' : List Event) :
    requestsOf conn (events ++ events') =
      requestsOf conn events ++ requestsOf conn events' :=
  List.filterMap_append

theorem requestsOf_request
    (conn : Nat)
    (msg : RawMessage)
    (clock : Clock)
    (events : List Event) :
    requestsOf conn
        (.request conn msg.msgType msg.tag msg.body clock ::
          events) =
      msg.message :: requestsOf conn events := by
  rw [requestsOf, List.filterMap_cons_some]
  · rfl
  · exact if_pos rfl

/- The events of other connections are no requests of one. -/
theorem requestsOf_eq_nil
    {conn : Nat}
    {events : List Event}
    (hOther : ∀ event ∈ events, event.conn ≠ conn) :
    requestsOf conn events = [] := by
  apply List.filterMap_eq_nil_iff.mpr
  intro event hMem
  have hConn := hOther event hMem
  cases event with
  | request conn' msgType tag body clock =>
      exact if_neg hConn
  | _ =>
      rfl

end Planten

------------------------------------------------------------
-- One Part of a Stream
------------------------------------------------------------

namespace Planten

open Decoder (Drains)

namespace Peer

variable (hasher : Hasher) (conn : Nat)

/-
  A connection that found these messages on its bytes, and
  an error behind them, was served as a run of events.  They
  are requests for the first of the messages, and for all of
  them when the connection goes on.
-/
structure Served
    (srv : Server)
    (msgs : List RawMessage)
    (rest : Bytes)
    (err : IoError)
    (events : List Event)
    (after : Peer × Bytes) : Prop where
  own : ∀ event ∈ events, event.conn = conn
  idle : srv.conns conn = none → events = []
  final :
    after.1.srv =
      Run.final (Server.step hasher) srv events
  sent :
    after.2 =
      (Run.outputs (Server.step hasher) (Server.sent hasher)
        srv events).flatten
  asked :
    requestsOf conn events <+: msgs.map RawMessage.message
  whole :
    (after.1.srv.conns conn).isSome →
      requestsOf conn events =
          msgs.map RawMessage.message ∧
        after.1.inbox = rest ∧ err.kind = .unexpectedEof

variable {hasher conn}

theorem served_closed
    {srv : Server}
    {inbox : Bytes}
    (hClosed : srv.conns conn = none)
    (msgs : List RawMessage)
    (rest : Bytes)
    (err : IoError) :
    Served hasher conn srv msgs rest err []
      (⟨srv, inbox⟩, []) where
  own := by simp
  idle := fun _ => rfl
  final := rfl
  sent := rfl
  asked := List.nil_prefix
  whole := by
    intro hOpen
    rw [hClosed] at hOpen
    cases hOpen

/- The loop handles the frames of its bytes one by one. -/
theorem served_handleClient
    {clock : Clock}
    {inbox rest : Bytes}
    {msgs : List RawMessage}
    {err : IoError}
    (hDrains :
      Drains RawMessage.readFrom inbox msgs rest err)
    (srv : Server)
    {fuel : Nat}
    (hFuel : inbox.length < fuel) :
    ∃ events,
      Served hasher conn srv msgs rest err events
        (handleClient hasher conn clock fuel
          ⟨srv, inbox⟩) := by
  induction hDrains generalizing srv fuel with
  | @stopped inbox err hRun =>
      cases fuel with
      | zero =>
          omega
      | succ fuel =>
          rw [handleClient]
          by_cases hOpen : (srv.conns conn).isSome
          · simp only [hOpen, if_true, hRun]
            by_cases hEof : err.kind = .unexpectedEof
            · rw [if_pos hEof]
              refine ⟨[], by simp, fun _ => rfl, rfl, rfl,
                List.nil_prefix, ?_⟩
              intro _
              exact ⟨rfl, rfl, hEof⟩
            · rw [if_neg hEof]
              refine ⟨[.close conn], by simp [Event.conn],
                ?_, rfl, rfl, List.nil_prefix, ?_⟩
              · intro hClosed
                rw [hClosed] at hOpen
                cases hOpen
              · intro hStill
                simp [Server.step] at hStill
          · simp only [hOpen]
            exact ⟨[], served_closed (by simpa using hOpen)
              _ _ _⟩
  | @more inbox mid rest msg msgs err hRun hTail ih =>
      cases fuel with
      | zero =>
          omega
      | succ fuel =>
          rw [handleClient]
          by_cases hOpen : (srv.conns conn).isSome
          · simp only [hOpen, if_true, hRun]
            have hShorter := length_of_readFrom hRun
            rcases ih (srv.step hasher (.request conn
                msg.msgType msg.tag msg.body clock))
              (by omega : mid.length < fuel) with
              ⟨events, hServed⟩
            refine ⟨.request conn msg.msgType msg.tag
              msg.body clock :: events, ?_, ?_,
              hServed.final, ?_, ?_, ?_⟩
            · intro event hMem
              rcases List.mem_cons.mp hMem with rfl | hMem
              · rfl
              · exact hServed.own event hMem
            · intro hClosed
              rw [hClosed] at hOpen
              cases hOpen
            · rw [Run.outputs, List.flatten_cons,
                ← hServed.sent]
            · rw [requestsOf_request, List.map_cons]
              exact List.prefix_cons_inj _ |>.mpr
                hServed.asked
            · intro hStill
              have hWhole := hServed.whole hStill
              rw [requestsOf_request, hWhole.1]
              exact ⟨rfl, hWhole.2⟩
          · simp only [hOpen]
            exact ⟨[], served_closed (by simpa using hOpen)
              _ _ _⟩

end Peer

end Planten

------------------------------------------------------------
-- One Arrival
------------------------------------------------------------

namespace Planten

open Decoder (Drains)

namespace Wire

variable (hasher : Hasher)

/- A server whose connections have no bytes to read. -/
def start (srv : Server) : Wire :=
  ⟨srv, fun _ => []⟩

/- Every open connection waits for the rest of a frame. -/
def Settled (w : Wire) : Prop :=
  ∀ conn, (w.srv.conns conn).isSome →
    ∃ err,
      err.kind = .unexpectedEof ∧
        Drains RawMessage.readFrom (w.inboxes conn) []
          (w.inboxes conn) err

/-
  What the server did on the arrivals is a run of events with
  the same bytes sent on each connection.  On a connection
  that is not opened again the requests are the first of the
  messages of its stream, and all of them as long as it is
  open; then it waits for the rest of the next one.
-/
structure Framed
    (w : Wire)
    (arrivals : List Arrival)
    (events : List Event) : Prop where
  final :
    (Run.final (step hasher) w arrivals).srv =
      Run.final (Server.step hasher) w.srv events
  sent (conn : Nat) :
    (Run.outputsOf (fun arrival => arrival.conn = conn)
        (step hasher) (sent hasher) w arrivals).flatten =
      (Run.outputsOf (fun event => event.conn = conn)
        (Server.step hasher) (Server.sent hasher) w.srv
        events).flatten
  asked (conn : Nat) :
    Arrival.accept conn ∉ arrivals →
      ∀ msgs rest err,
        Drains RawMessage.readFrom
            (w.inboxes conn ++ streamOf conn arrivals) msgs
            rest err →
          requestsOf conn events <+:
              msgs.map RawMessage.message ∧
            (((Run.final (step hasher) w arrivals).srv.conns
                conn).isSome →
              requestsOf conn events =
                  msgs.map RawMessage.message ∧
                (Run.final (step hasher) w
                    arrivals).inboxes conn = rest ∧
                err.kind = .unexpectedEof)
  idle (conn : Nat) :
    Arrival.accept conn ∉ arrivals →
      w.srv.conns conn = none →
        requestsOf conn events = [] ∧
          (Run.final (step hasher) w arrivals).srv.conns
            conn = none

variable {hasher}

/- A settled connection that nothing arrives on. -/
theorem asked_of_untouched
    {w w' : Wire}
    {conn : Nat}
    (hSettled : w.Settled)
    (hConns : w'.srv.conns conn = w.srv.conns conn)
    (hInbox : w'.inboxes conn = w.inboxes conn)
    {msgs : List RawMessage}
    {rest : Bytes}
    {err : IoError}
    (hDrains :
      Drains RawMessage.readFrom (w.inboxes conn ++ []) msgs
        rest err) :
    [] <+: msgs.map RawMessage.message ∧
      ((w'.srv.conns conn).isSome →
        [] = msgs.map RawMessage.message ∧
          w'.inboxes conn = rest ∧
          err.kind = .unexpectedEof) := by
  refine ⟨List.nil_prefix, ?_⟩
  intro hOpen
  rw [hConns] at hOpen
  rcases hSettled conn hOpen with ⟨err', hEof, hWaits⟩
  rw [List.append_nil] at hDrains
  rcases hDrains.unique hWaits with ⟨rfl, rfl, rfl⟩
  exact ⟨rfl, hInbox, hEof⟩

/- Events of one connection leave the others alone. -/
theorem conns_final_of_own
    {conn conn' : Nat}
    (hNe : conn ≠ conn')
    {events : List Event}
    (hOwn : ∀ event ∈ events, event.conn = conn')
    (srv : Server) :
    (Run.final (Server.step hasher) srv events).conns conn =
      srv.conns conn := by
  induction events generalizing srv with
  | nil =>
      rfl
  | cons event events ih =>
      have hOther : event.conn ≠ conn := by
        rw [hOwn event (List.mem_cons_self ..)]
        exact hNe.symm
      rw [Run.final_cons, ih (fun event' hMem =>
        hOwn event' (List.mem_cons_of_mem event hMem))]
      exact Server.conns_step_of_ne hasher srv hOther

theorem streamOf_of_ne
    {conn : Nat}
    {arrival : Arrival}
    (hNe : conn ≠ arrival.conn) :
    streamOf conn [arrival] = [] := by
  cases arrival with
  | bytes conn' part clock =>
      simp only [streamOf, List.flatMap_cons,
        List.flatMap_nil, List.append_nil]
      exact if_neg (Ne.symm hNe)
  | _ =>
      rfl

/-
  An arrival that is some events of its own connection, which
  are as they should be there, is framed.
-/
theorem framed_of_own
    {w : Wire}
    {arrival : Arrival}
    {events : List Event}
    (hSettled : w.Settled)
    (hOwn : ∀ event ∈ events, event.conn = arrival.conn)
    (hFinal :
      (w.step hasher arrival).srv =
        Run.final (Server.step hasher) w.srv events)
    (hSent :
      w.sent hasher arrival =
        (Run.outputs (Server.step hasher)
          (Server.sent hasher) w.srv events).flatten)
    (hInboxes :
      ∀ conn, conn ≠ arrival.conn →
        (w.step hasher arrival).inboxes conn =
          w.inboxes conn)
    (hAsked :
      Arrival.accept arrival.conn ≠ arrival →
        ∀ msgs rest err,
          Drains RawMessage.readFrom
              (w.inboxes arrival.conn ++
                streamOf arrival.conn [arrival]) msgs rest
              err →
            requestsOf arrival.conn events <+:
                msgs.map RawMessage.message ∧
              (((w.step hasher arrival).srv.conns
                  arrival.conn).isSome →
                requestsOf arrival.conn events =
                    msgs.map RawMessage.message ∧
                  (w.step hasher arrival).inboxes
                      arrival.conn = rest ∧
                  err.kind = .unexpectedEof))
    (hIdle :
      Arrival.accept arrival.conn ≠ arrival →
        w.srv.conns arrival.conn = none →
          requestsOf arrival.conn events = [] ∧
            (w.step hasher arrival).srv.conns
              arrival.conn = none) :
    Framed hasher w [arrival] events where
  final := hFinal
  sent := by
    intro conn
    by_cases hHere : arrival.conn = conn
    · rw [Run.outputsOf_of_all _ _ _ (by simpa using hHere),
        Run.outputsOf_of_all _ _ _ (by
          intro event hMem
          simpa [hOwn event hMem] using hHere), ← hSent]
      simp [Run.outputs]
    · rw [Run.outputsOf_of_none _ _ _ (by simpa using hHere),
        Run.outputsOf_of_none _ _ _ (by
          intro event hMem
          simpa [hOwn event hMem] using hHere)]
  asked := by
    intro conn hAccept msgs rest err hDrains
    by_cases hHere : conn = arrival.conn
    · subst hHere
      exact hAsked (by simpa using hAccept) msgs rest err
        hDrains
    · rw [streamOf_of_ne hHere] at hDrains
      rw [requestsOf_eq_nil (fun event hMem =>
        (hOwn event hMem).trans_ne (Ne.symm hHere))]
      refine asked_of_untouched hSettled ?_
        (hInboxes conn hHere) hDrains
      exact (congrArg (Server.conns · conn) hFinal).trans
        (conns_final_of_own hHere hOwn w.srv)
  idle := by
    intro conn hAccept hClosed
    by_cases hHere : conn = arrival.conn
    · subst hHere
      exact hIdle (by simpa using hAccept) hClosed
    · refine ⟨requestsOf_eq_nil (fun event hMem =>
        (hOwn event hMem).trans_ne (Ne.symm hHere)), ?_⟩
      refine (congrArg (Server.conns · conn) hFinal).trans ?_
      exact (conns_final_of_own hHere hOwn w.srv).trans
        hClosed

theorem final_singleton
    (w : Wire)
    (arrival : Arrival) :
    Run.final (step hasher) w [arrival] =
      w.step hasher arrival :=
  rfl

/- One arrival is some events of its connection. -/
theorem framed_step
    (hasher : Hasher)
    (w : Wire)
    (arrival : Arrival)
    (hSettled : w.Settled) :
    ∃ events, Framed hasher w [arrival] events := by
  cases arrival with
  | accept conn =>
      by_cases hOpen : (w.srv.conns conn).isSome
      · have hStep :
            w.step hasher (.accept conn) = w := by
          rw [step, if_pos hOpen]
        refine ⟨[], framed_of_own hSettled (by simp) ?_ rfl
          ?_ (fun hNe => (hNe rfl).elim)
          (fun hNe => (hNe rfl).elim)⟩
        · rw [hStep]
          rfl
        · rw [hStep]
          intro conn' _
          rfl
      · have hStep :
            w.step hasher (.accept conn) =
              ⟨w.srv.step hasher (.accept conn),
                Function.update w.inboxes conn []⟩ := by
          rw [step, if_neg hOpen]
        refine ⟨[.accept conn], framed_of_own hSettled
          (by simp [Event.conn, Arrival.conn]) ?_ rfl ?_
          (fun hNe => (hNe rfl).elim)
          (fun hNe => (hNe rfl).elim)⟩
        · rw [hStep]
          rfl
        · rw [hStep]
          intro conn' hNe
          exact Function.update_of_ne hNe _ _
  | hangup conn =>
      have hClosed :
          (w.step hasher (.hangup conn)).srv.conns conn =
            none := Function.update_self ..
      refine ⟨[.close conn], framed_of_own hSettled
        (by simp [Event.conn, Arrival.conn]) rfl rfl ?_ ?_
        (fun _ _ => ⟨rfl, hClosed⟩)⟩
      · intro conn' _
        rfl
      · intro _ msgs rest err _
        refine ⟨List.nil_prefix, ?_⟩
        intro hOpen
        exact absurd hClosed
          (Option.isSome_iff_ne_none.mp hOpen)
  | bytes conn part clock =>
      rcases Decoder.exists_drains shrinks_readFrom
        (w.inboxes conn ++ part) with
        ⟨msgs, rest, err, hDrains⟩
      rcases @Peer.served_handleClient hasher conn clock _ _
          _ _ hDrains w.srv _ (Nat.lt_succ_self _) with
        ⟨events, hServed⟩
      refine ⟨events, framed_of_own hSettled hServed.own
        hServed.final hServed.sent ?_ ?_ ?_⟩
      · intro conn' hNe
        exact Function.update_of_ne hNe _ _
      · intro _ msgs' rest' err' hDrains'
        have hStream :
            streamOf conn [.bytes conn part clock] =
              part := by
          simp [streamOf]
        change Drains _ (w.inboxes conn ++ streamOf conn _)
          _ _ _ at hDrains'
        rw [hStream] at hDrains'
        rcases hDrains'.unique hDrains with ⟨rfl, rfl, rfl⟩
        refine ⟨hServed.asked, ?_⟩
        intro hOpen
        have hWhole := hServed.whole hOpen
        refine ⟨hWhole.1, ?_, hWhole.2.2⟩
        exact (Function.update_self ..).trans hWhole.2.1
      · intro _ hClosed
        have hFinal := hServed.final
        rw [hServed.idle hClosed] at hFinal ⊢
        exact ⟨rfl, (congrArg (Server.conns · conn)
          hFinal).trans hClosed⟩

end Wire

end Planten

------------------------------------------------------------
-- Runs of Arrivals
------------------------------------------------------------

namespace Planten

open Decoder (Drains)

namespace Wire

variable {hasher : Hasher}

/- A connection waits on no bytes, or on what it has left. -/
theorem Settled.step
    {w : Wire}
    (hSettled : w.Settled)
    (hasher : Hasher)
    (arrival : Arrival) :
    (w.step hasher arrival).Settled := by
  rcases framed_step hasher w arrival hSettled with
    ⟨events, hFramed⟩
  intro conn hOpen
  by_cases hAccept : Arrival.accept conn = arrival
  · subst hAccept
    rw [Wire.step] at hOpen ⊢
    split at hOpen
    · rename_i hAlready
      rw [if_pos hAlready]
      exact hSettled conn hOpen
    · rename_i hNew
      rw [if_neg hNew]
      refine ⟨IoError.eof, rfl, ?_⟩
      simp only [Function.update_self]
      exact .stopped rfl
  · rcases Decoder.exists_drains shrinks_readFrom
      (w.inboxes conn ++ streamOf conn [arrival]) with
      ⟨msgs, rest, err, hDrains⟩
    have hAsked :=
      hFramed.asked conn (by simpa using hAccept) msgs rest
        err hDrains
    rcases hAsked.2 hOpen with ⟨_, hInbox, hEof⟩
    refine ⟨err, hEof, ?_⟩
    rw [final_singleton] at hInbox
    rw [hInbox]
    exact hDrains.rest

theorem streamOf_cons
    (conn : Nat)
    (arrival : Arrival)
    (arrivals : List Arrival) :
    streamOf conn (arrival :: arrivals) =
      streamOf conn [arrival] ++ streamOf conn arrivals := by
  simp only [streamOf, List.flatMap_cons, List.flatMap_nil,
    List.append_nil]

/- Arrivals after another are events after another. -/
theorem Framed.cons
    {w : Wire}
    {arrival : Arrival}
    {arrivals : List Arrival}
    {events events' : List Event}
    (hFirst : Framed hasher w [arrival] events)
    (hRest :
      Framed hasher (w.step hasher arrival) arrivals
        events') :
    Framed hasher w (arrival :: arrivals)
      (events ++ events') where
  final := by
    have hFinal := hRest.final
    have hSrv := hFirst.final
    rw [final_singleton] at hSrv
    rw [Run.final_cons, Run.final_append, ← hSrv, ← hFinal]
  sent := by
    intro conn
    have hSrv := hFirst.final
    rw [final_singleton] at hSrv
    rw [Run.outputsOf_append, List.flatten_append,
      ← hFirst.sent conn, ← hSrv, ← hRest.sent conn,
      ← List.flatten_append]
    change (Run.outputsOf _ _ _ w
      ([arrival] ++ arrivals)).flatten = _
    rw [Run.outputsOf_append, final_singleton]
  asked := by
    intro conn hAccept msgs rest err hDrains
    rw [List.mem_cons, not_or] at hAccept
    rw [streamOf_cons, ← List.append_assoc] at hDrains
    rw [requestsOf_append, Run.final_cons]
    rcases Decoder.exists_drains shrinks_readFrom
      (w.inboxes conn ++ streamOf conn [arrival]) with
      ⟨msgs₁, rest₁, err₁, hDrains₁⟩
    have hAsked₁ :=
      hFirst.asked conn (by simpa using hAccept.1) msgs₁
        rest₁ err₁ hDrains₁
    rw [final_singleton] at hAsked₁
    cases hConn :
        (w.step hasher arrival).srv.conns conn with
    | none =>
        -- the connection is over: the rest asks nothing
        have hIdle := hRest.idle conn hAccept.2 hConn
        rw [hIdle.1, List.append_nil, hIdle.2]
        refine ⟨?_, nofun⟩
        exact hAsked₁.1.trans
          ((extends_readFrom.prefix_of_drains
            shrinks_readFrom hDrains₁ hDrains).map _)
    | some fids =>
        rcases hAsked₁.2 (Option.isSome_of_eq_some hConn) with
          ⟨hAll, hInbox, _⟩
        rcases Decoder.exists_drains shrinks_readFrom
          (rest₁ ++ streamOf conn arrivals) with
          ⟨msgs₂, rest₂, err₂, hDrains₂⟩
        rcases (extends_readFrom.drains_append hDrains₁
          hDrains₂).unique hDrains with ⟨rfl, rfl, rfl⟩
        rw [← hInbox] at hDrains₂
        have hAsked₂ :=
          hRest.asked conn hAccept.2 msgs₂ rest₂ err₂
            hDrains₂
        rw [hAll, List.map_append]
        refine ⟨List.prefix_append_right_inj _ |>.mpr
          hAsked₂.1, ?_⟩
        intro hOpen
        have hWhole := hAsked₂.2 hOpen
        exact ⟨congrArg _ hWhole.1, hWhole.2⟩
  idle := by
    intro conn hAccept hClosed
    rw [List.mem_cons, not_or] at hAccept
    have hIdle₁ :=
      hFirst.idle conn (by simpa using hAccept.1) hClosed
    rw [final_singleton] at hIdle₁
    have hIdle₂ := hRest.idle conn hAccept.2 hIdle₁.2
    rw [requestsOf_append, hIdle₁.1, hIdle₂.1]
    exact ⟨rfl, hIdle₂.2⟩

theorem framed_of_settled
    (hasher : Hasher)
    (arrivals : List Arrival)
    {w : Wire}
    (hSettled : w.Settled) :
    ∃ events, Framed hasher w arrivals events := by
  induction arrivals generalizing w with
  | nil =>
      refine ⟨[], rfl, fun _ => rfl, ?_, ?_⟩
      · intro conn _ msgs rest err hDrains
        exact asked_of_untouched hSettled rfl rfl hDrains
      · intro conn _ hClosed
        exact ⟨rfl, hClosed⟩
  | cons arrival arrivals ih =>
      rcases framed_step hasher w arrival hSettled with
        ⟨events, hFirst⟩
      rcases ih (hSettled.step hasher arrival) with
        ⟨events', hRest⟩
      exact ⟨events ++ events', hFirst.cons hRest⟩

/- A connection that is accepted has no bytes yet. -/
theorem step_accept
    (hasher : Hasher)
    {w : Wire}
    {conn : Nat}
    (hClosed : w.srv.conns conn = none) :
    (w.step hasher (.accept conn)).inboxes conn = [] ∧
      (w.step hasher (.accept conn)).srv.conns conn =
        some [] := by
  have hNot : ¬ (w.srv.conns conn).isSome := by
    rw [hClosed]
    nofun
  rw [step, if_neg hNot, Server.step, if_neg hNot]
  exact ⟨Function.update_self .., Function.update_self ..⟩

/-
  However the bytes of the connections are cut, and in what
  order they come, the server does from any moment on what
  it would do on whole requests: on each connection those of
  the frames of its stream.
-/
theorem framed_run
    (hasher : Hasher)
    (srv : Server)
    (before arrivals : List Arrival) :
    (∃ events,
      Framed hasher
        (Run.final (step hasher) (start srv) before) arrivals
        events) ∧
      ∀ conn,
        (Run.final (step hasher) (start srv)
            before).srv.conns conn = none →
          ∃ events,
            Framed hasher
              ((Run.final (step hasher) (start srv)
                before).step hasher (.accept conn)) arrivals
              events ∧
            (Arrival.accept conn ∉ arrivals →
              ∀ msgs rest err,
                Drains RawMessage.readFrom
                    (streamOf conn arrivals) msgs rest err →
                  requestsOf conn events <+:
                    msgs.map RawMessage.message) := by
  have hSettled :
      (Run.final (step hasher) (start srv)
        before).Settled := by
    apply Run.invariant
    · intro w arrival hSettled
      exact hSettled.step hasher arrival
    · intro conn _
      exact ⟨IoError.eof, rfl, .stopped rfl⟩
  refine ⟨framed_of_settled hasher arrivals hSettled, ?_⟩
  intro conn hClosed
  rcases framed_of_settled hasher arrivals
    (hSettled.step hasher (.accept conn)) with
    ⟨events, hFramed⟩
  refine ⟨events, hFramed, ?_⟩
  intro hOnce msgs rest err hDrains
  have hInbox := (step_accept hasher hClosed).1
  refine (hFramed.asked conn hOnce msgs rest err ?_).1
  rw [hInbox]
  exact hDrains

end Wire

end Planten
