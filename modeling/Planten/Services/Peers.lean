import Planten.NineP.Client
import Planten.Services.Service

/-
  A server at the other end of a stream.

  The loop of a connection takes one whole frame after the
  other off its stream.  A turn that is not answered ends
  the connection, and then nothing is read or sent any more.
  What the turns find of the host and of the other
  connections is given in order.

  Key definitions include:
    * `Service.Peer`
    * `Service.handleClient`
    * `Service.deliver`

  Key theorems include:
    * `Service.deliver_of_answer`
    * `Service.deliver_of_silence`
    * `run_call_of_silence`
-/

------------------------------------------------------------
-- Services as Peers
------------------------------------------------------------

namespace Planten

/-
  The server end of a connection: its fids, until it ends,
  the turns it has taken, and the bytes it has not read.
-/
structure Service.Peer where
  fids : Option FidTable
  turns : Nat
  inbox : Bytes

namespace Service

/- A connection that has just been accepted. -/
def accepted : Peer :=
  ⟨some [], 0, []⟩

/- Nothing is on the way to or from the connection. -/
structure InStep (link : P9Client Peer) : Prop where
  incoming : link.incoming = []
  inbox : link.peer.fids.isSome → link.peer.inbox = []

variable (S : Service) (envs : Nat → S.Env)

/-
  The loop of `handle_client` over the bytes that are there.
  What its turns find is given in order.  A turn that is not
  answered ends the connection, and so does a frame that
  cannot be read.
-/
def handleClient : Nat → Peer → Peer × Bytes
| 0, peer => (peer, [])
| fuel + 1, peer =>
    match peer.fids with
    | none => (peer, [])
    | some fids =>
        match RawMessage.readFrom.run peer.inbox with
        | .ok (msg, rest) =>
            match S.answer fids
                ⟨envs peer.turns, msg.msgType, msg.tag,
                  msg.body⟩ with
            | some (fids, frame) =>
                let (peer', bytes) :=
                  handleClient fuel
                    ⟨some fids, peer.turns + 1, rest⟩
                (peer', frame ++ bytes)
            | none => (⟨none, peer.turns + 1, rest⟩, [])
        | .error err =>
            if err.kind = .unexpectedEof then
              (peer, [])
            else
              (⟨none, peer.turns, []⟩, [])

/- How the server takes bytes, and what it sends back. -/
def deliver : Delivery Peer :=
  fun peer bytes =>
    let inbox := peer.inbox ++ bytes
    S.handleClient envs (inbox.length + 1)
      ⟨peer.fids, peer.turns, inbox⟩

variable {S envs}

/- Without bytes there is nothing to handle. -/
theorem handleClient_nil
    (fuel : Nat)
    (fids : Option FidTable)
    (turns : Nat) :
    S.handleClient envs fuel ⟨fids, turns, []⟩ =
      (⟨fids, turns, []⟩, []) := by
  have hEof :
      RawMessage.readFrom.run [] = .error IoError.eof := rfl
  cases fuel with
  | zero =>
      rfl
  | succ fuel =>
      cases fids with
      | none =>
          rfl
      | some fids =>
          simp only [handleClient, hEof]
          rfl

variable {peer : Peer} {fids fids' : FidTable}
variable {msgType : UInt8} {tag : UInt16}
variable {body frame : Bytes}

/- What is sent to a connection that has ended is lost. -/
theorem deliver_of_ended
    (hFids : peer.fids = none)
    (bytes : Bytes) :
    S.deliver envs peer bytes =
      (⟨none, peer.turns, peer.inbox ++ bytes⟩, []) := by
  simp only [deliver, handleClient, hFids]

/- A frame that is answered is one turn. -/
theorem deliver_of_answer
    (hFids : peer.fids = some fids)
    (hInbox : peer.inbox = [])
    (hFits : 7 + body.length < 2 ^ 32)
    (hAnswer :
      S.answer fids ⟨envs peer.turns, msgType, tag, body⟩ =
        some (fids', frame)) :
    S.deliver envs peer (frameBytes msgType tag body) =
      (⟨some fids', peer.turns + 1, []⟩, frame) := by
  have hRead :=
    (decodes_readFrom msgType tag hFits).run_nil
  simp only [deliver, hInbox, List.nil_append, handleClient,
    hFids, hRead, hAnswer, handleClient_nil,
    List.append_nil]

/- A frame that is not answered ends the connection. -/
theorem deliver_of_silence
    (hFids : peer.fids = some fids)
    (hInbox : peer.inbox = [])
    (hFits : 7 + body.length < 2 ^ 32)
    (hAnswer :
      S.answer fids ⟨envs peer.turns, msgType, tag, body⟩ =
        none) :
    S.deliver envs peer (frameBytes msgType tag body) =
      (⟨none, peer.turns + 1, []⟩, []) := by
  have hRead :=
    (decodes_readFrom msgType tag hFits).run_nil
  simp only [deliver, hInbox, List.nil_append, handleClient,
    hFids, hRead, hAnswer]

end Service

end Planten

------------------------------------------------------------
-- Calls without an Answer
------------------------------------------------------------

namespace Planten

/- A client that nothing comes back to is at the end. -/
theorem run_call_of_silence
    {σ α : Type}
    {deliver : Delivery σ}
    {c : P9Client σ}
    {msgType : UInt8}
    {body : Bytes}
    {peer : σ}
    (hIncoming : c.incoming = [])
    (hBody : 7 + body.length < 2 ^ 32)
    (hDeliver :
      deliver c.peer (frameBytes msgType c.nextTag body) =
        (peer, []))
    (expected : UInt8)
    (d : Decoder IoError α) :
    call deliver msgType body expected d c =
      .error (.io IoError.eof)
        ⟨c.nextTag + 1, [], peer⟩ := by
  have hEof :
      RawMessage.readFrom.run [] = .error IoError.eof := rfl
  simp only [call, sendAndWait, ClientM.run_bind, takeTag,
    buildFrame_of_fits _ _ hBody, writeAll, hDeliver,
    hIncoming, List.append_nil, readMessage, hEof]

end Planten
