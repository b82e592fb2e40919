import Planten.NineP.Client
import Planten.RamFs.Replies

/-
  The client library and the server, end to end.

  A client is linked to one connection of a server, which
  may have others.  As long as its arguments and the replies
  fit their length fields, the server reads the arguments of
  every call, and every call takes the reply to its request
  off the stream and nothing else, whether it succeeds or
  not.

  Key definitions include:
    * `Peer.handleClient`
    * `Call.Fits`
    * `Request.Carries`
    * `Link`
    * `Turn.InStep`

  Key theorems include:
    * `Call.decode_of_fits`
    * `Effect.result_of_carries`
    * `Link.answered_of_call`
    * `Link.end_to_end`
-/

------------------------------------------------------------
-- One Connection as a Peer
------------------------------------------------------------

namespace Planten

/-
  The server at the other end of a stream, and the bytes on
  the stream that its connection has not read.
-/
structure Peer where
  srv : Server
  inbox : Bytes

namespace Peer

variable (hasher : Hasher) (conn : Nat) (clock : Clock)

/-
  The loop of `handle_client` over the bytes that are there:
  it handles whole frames in turn, and waits for the rest of
  the last one.  A frame that cannot be read ends the
  connection.  Every frame has a header, so the fuel is the
  number of bytes.
-/
def handleClient : Nat → Peer → Peer × Bytes
| 0, peer => (peer, [])
| fuel + 1, peer =>
    if (peer.srv.conns conn).isSome then
      match RawMessage.readFrom.run peer.inbox with
      | .ok (msg, rest) =>
          let event :=
            .request conn msg.msgType msg.tag msg.body clock
          let (peer', bytes) :=
            handleClient fuel
              ⟨peer.srv.step hasher event, rest⟩
          (peer', peer.srv.sent hasher event ++ bytes)
      | .error err =>
          if err.kind = .unexpectedEof then
            (peer, [])
          else
            (⟨peer.srv.step hasher (.close conn), []⟩, [])
    else
      (peer, [])

/- How the server takes bytes, and what it sends back. -/
def deliver : Delivery Peer :=
  fun peer frame =>
    let inbox := peer.inbox ++ frame
    handleClient hasher conn clock (inbox.length + 1)
      ⟨peer.srv, inbox⟩

variable {hasher conn clock}

/- A frame that is read is shorter than what is left. -/
theorem length_of_readFrom
    {cursor rest : Bytes}
    {msg : RawMessage}
    (hRun :
      RawMessage.readFrom.run cursor = .ok (msg, rest)) :
    rest.length < cursor.length := by
  rcases Decoder.run_bind_ok hRun with
    ⟨size, afterSize, hSize, hRun⟩
  rcases Decoder.run_bind_ok hSize with
    ⟨sizeBytes, afterSize', hTake, hPure⟩
  cases hPure
  have hFirst := Decoder.readExact_ok hTake
  split at hRun
  · cases hRun
  · rcases Decoder.run_bind_ok hRun with
      ⟨header, afterHeader, hHeader, hRun⟩
    rcases Decoder.run_bind_ok hRun with
      ⟨body, afterBody, hBody, hPure⟩
    cases hPure
    have hSecond := Decoder.readExact_ok hHeader
    have hThird := Decoder.readExact_ok hBody
    rw [hFirst.1, hSecond.1, hThird.1]
    simp only [List.length_append, hFirst.2]
    omega

/- Without bytes there is nothing to handle. -/
theorem handleClient_nil
    (fuel : Nat)
    (srv : Server) :
    handleClient hasher conn clock fuel ⟨srv, []⟩ =
      (⟨srv, []⟩, []) := by
  have hEof :
      RawMessage.readFrom.run [] = .error IoError.eof := rfl
  cases fuel with
  | zero =>
      rfl
  | succ fuel =>
      rw [handleClient]
      split
      · rw [hEof]
        rfl
      · rfl

/- One whole frame is handled as one request. -/
theorem deliver_of_frame
    {peer : Peer}
    (hInbox : peer.inbox = [])
    (hOpen : (peer.srv.conns conn).isSome)
    (msgType : UInt8)
    (tag : UInt16)
    {body : Bytes}
    (hFits : 7 + body.length < 2 ^ 32) :
    deliver hasher conn clock peer
        (frameBytes msgType tag body) =
      (⟨peer.srv.step hasher
          (.request conn msgType tag body clock), []⟩,
        peer.srv.sent hasher
          (.request conn msgType tag body clock)) := by
  have hRead :=
    (decodes_readFrom msgType tag hFits).run_nil
  simp only [deliver, hInbox, List.nil_append]
  rw [handleClient, if_pos hOpen]
  simp only [hRead]
  rw [handleClient_nil, List.append_nil]

end Peer

end Planten

------------------------------------------------------------
-- Arguments and Fields
------------------------------------------------------------

namespace Planten

/-
  The arguments of a call fit their length fields, and its
  numbers are far from overflow.
-/
def Call.ArgsFit : Call → Prop
| .version _ versionStr => versionStr.utf8ByteSize ≤ 65535
| .auth _ uname aname | .attach _ _ uname aname =>
    uname.utf8ByteSize ≤ 65535 ∧ aname.utf8ByteSize ≤ 65535
| .walk _ _ names =>
    names.length ≤ 65535 ∧
      ∀ name ∈ names, name.utf8ByteSize ≤ 65535
| .create _ name _ _ => name.utf8ByteSize ≤ 65535
| .read _ offset _ | .write _ offset _ =>
    offset.toNat < 2 ^ 62
| .wstat _ record =>
    (statRecord record).length ≤ 65535 ∧
      (record.length.toNat < 2 ^ 62 ∨
        record.length = 0xffffffffffffffff)
| _ => True

instance (c : Call) : Decidable c.ArgsFit := by
  cases c <;> unfold Call.ArgsFit <;> infer_instance

/- The same for the size of its frame. -/
structure Call.Fits (c : Call) : Prop where
  args : c.ArgsFit
  body : 7 + c.body.length < 2 ^ 32

/-
  The fields of a request are the arguments of a call.  The
  bodies of an authentication and of a flush are not read.
-/
inductive Request.Carries : Request → Call → Prop where
| version
    {msize : UInt32} {versionStr : String} :
    Carries (.tversion msize versionStr)
      (.version msize versionStr)
| auth
    {afid : UInt32} {uname aname : String} :
    Carries .tauth (.auth afid uname aname)
| attach
    {fid : UInt32} {afid : Option UInt32}
    {uname aname : String} :
    Carries (.tattach fid (afid.getD 0) uname aname)
      (.attach fid afid uname aname)
| walk
    {fid newfid : UInt32} {nwname : UInt16}
    {bytes : Bytes} {names : List String}
    (hCount : nwname.toNat = names.length)
    (hNames :
      (Decoder.many readString nwname.toNat).run bytes =
        .ok (names, [])) :
    Carries (.twalk fid newfid nwname bytes)
      (.walk fid newfid names)
| open'
    {fid : UInt32} {mode : UInt8} :
    Carries (.topen fid mode) (.open' fid mode)
| create
    {fid : UInt32} {name : String} {perm : UInt32}
    {mode : UInt8} :
    Carries (.tcreate fid name perm mode)
      (.create fid name perm mode)
| read
    {fid : UInt32} {offset : UInt64} {count : UInt32} :
    Carries (.tread fid offset count)
      (.read fid offset count)
| write
    {fid : UInt32} {offset : UInt64} {data : Bytes} :
    Carries (.twrite fid offset data)
      (.write fid offset data)
| clunk {fid : UInt32} :
    Carries (.tclunk fid) (.clunk fid)
| stat {fid : UInt32} :
    Carries (.tstat fid) (.stat fid)
| wstat
    {fid : UInt32} {bytes : Bytes} {record : Stat}
    (hRecord : decodeStat.run bytes = .ok (record, [])) :
    Carries (.twstat fid bytes) (.wstat fid record)
| remove {fid : UInt32} :
    Carries (.tremove fid) (.remove fid)
| flush {oldtag : UInt16} :
    Carries .tflush (.flush oldtag)

/- The server reads the arguments of a call that fits. -/
theorem Call.decode_of_fits
    {c : Call}
    (hFits : c.Fits) :
    ∃ req,
      Request.decode c.msgType c.body = .ok req ∧
        req.Carries c := by
  have hArgs := hFits.args
  have hBody := hFits.body
  cases c with
  | version msize versionStr =>
      exact ⟨_, Request.decode_version msize hArgs,
        .version⟩
  | auth afid uname aname =>
      exact ⟨_, Request.decode_auth _, .auth⟩
  | attach fid afid uname aname =>
      exact ⟨_,
        Request.decode_attach fid afid hArgs.1 hArgs.2,
        .attach⟩
  | walk fid newfid names =>
      have hCount :
          (UInt16.ofNat names.length).toNat =
            names.length := by
        have hLength := hArgs.1
        simp
        omega
      refine ⟨_, Request.decode_walk fid newfid names,
        .walk hCount ?_⟩
      rw [hCount]
      exact (decodes_names hArgs.2).run_nil
  | open' fid mode =>
      exact ⟨_, Request.decode_open fid mode, .open'⟩
  | create fid name perm mode =>
      exact ⟨_, Request.decode_create fid perm mode hArgs,
        .create⟩
  | read fid offset count =>
      exact ⟨_, Request.decode_read fid offset count, .read⟩
  | write fid offset data =>
      have hLength : data.length < 2 ^ 32 := by
        simp only [body, encodeWriteBody,
          List.length_append] at hBody
        omega
      exact ⟨_, Request.decode_write fid offset hLength,
        .write⟩
  | clunk fid =>
      exact ⟨_, Request.decode_clunk fid, .clunk⟩
  | stat fid =>
      exact ⟨_, Request.decode_stat fid, .stat⟩
  | wstat fid record =>
      exact ⟨_, Request.decode_wstat fid record,
        .wstat (decodes_decodeStat hArgs.1).run_nil⟩
  | remove fid =>
      exact ⟨_, Request.decode_remove fid, .remove⟩
  | flush oldtag =>
      exact ⟨_, Request.decode_flush _, .flush⟩

end Planten

------------------------------------------------------------
-- What the Server Makes of a Call
------------------------------------------------------------

namespace Planten

/- A walk whose names can be read ends with an answer. -/
theorem walkNames_ne_error
    (hasher : Hasher)
    (fs : RamFs)
    {n : Nat}
    {cursor rest : Bytes}
    {names : List String}
    (hNames :
      (Decoder.many readString n).run cursor =
        .ok (names, rest))
    (path : String)
    (qids : List Qid)
    (err : IoError) :
    walkNames hasher fs n cursor path qids ≠ .error err := by
  induction n generalizing cursor names rest path qids with
  | zero =>
      intro hError
      cases hError
  | succ n ih =>
      rcases Decoder.run_bind_ok hNames with
        ⟨name, mid, hName, hNames⟩
      rcases Decoder.run_bind_ok hNames with
        ⟨tail, rest', hTail, _⟩
      intro hError
      rw [walkNames, hName] at hError
      simp only [bind, Except.bind] at hError
      split at hError
      · split at hError
        · exact ih hTail _ _ hError
        · cases hError
      · cases hError

variable {hasher : Hasher} {clock : Clock}
variable {fs fs' : RamFs} {fids fids' : FidTable}
variable {req : Request} {c : Call}

/- The numbers of a call that fits do not overflow. -/
theorem Request.Carries.not_overflows
    (hCarries : req.Carries c)
    (hFits : c.Fits)
    (hClock : ∀ i, 0 ≤ clock i)
    (hUncut : ¬ req.Cuts hasher fs fids) :
    ¬ req.Overflows hasher clock fs fids := by
  have hArgs := hFits.args
  have hBody := hFits.body
  have hMax : isizeMax = 2 ^ 63 - 1 := rfl
  intro hOverflows
  cases hOverflows with
  | create hFid hStep hFresh hEpoch =>
      rcases hEpoch with ⟨i, _, _, hBefore⟩
      exact absurd (hClock i) (not_le.mpr hBefore)
  | readEnd hFid hMode hAllowed hData hEnd =>
      rename_i fid offset count state mode data
      have hCount := count.toNat_lt
      cases hCarries with
      | read =>
          simp only [Call.ArgsFit] at hArgs
          omega
  | readSize hFid hMode hAllowed hData hLow hHigh =>
      exact hUncut (.read hFid hMode hAllowed hData hLow)
  | write hFid hMode hAllowed hNonempty hNode hEnd =>
      cases hCarries with
      | write =>
          simp only [Call.ArgsFit] at hArgs
          simp only [Call.body, encodeWriteBody,
            List.length_append] at hBody
          omega
  | wstat hFid hRecord hNonempty hNode hAsked hLength =>
      cases hCarries with
      | wstat hRecord' =>
          cases hRecord'.symm.trans hRecord
          rcases hArgs.2 with hSmall | hSame
          · omega
          · exact hAsked hSame

/- What a call returns on a reply. -/
def Reply.value : Reply → Value
| rversion _ version => .version version
| rauth aqid => .qid aqid
| rwalk qids => .count qids.length
| ropen _ iounit => .iounit iounit
| rcreate qid iounit => .created qid iounit
| rread data => .data data
| rwrite count => .written count
| rstat stat => .stat stat
| _ => .unit

/-
  The reply to a call is of the expected type and decodes to
  its value, or it is an error.
-/
theorem Effect.result_of_carries
    {reply : Reply}
    (hEffect :
      Effect hasher clock fs fids req fs' fids' reply)
    (hCarries : req.Carries c)
    (hFits : reply.Fits) :
    (reply.msgType = c.expected ∧
      ∃ rest,
        c.result.run reply.body = .ok (reply.value, rest)) ∨
      reply.msgType = RERROR := by
  have hWhole
      (hType : reply.msgType = c.expected)
      (hDecodes :
        Decoder.Decodes c.result reply.body reply.value) :
      (reply.msgType = c.expected ∧
        ∃ rest,
          c.result.run reply.body =
            .ok (reply.value, rest)) ∨
        reply.msgType = RERROR :=
    Or.inl ⟨hType, [], hDecodes.run_nil⟩
  cases hEffect with
  | version | auth =>
      cases hCarries
      exact Or.inl ⟨rfl, [], rfl⟩
  | flush | attach | clunk | remove hFid hOp
  | wstat hFid hRecord hOp =>
      cases hCarries
      exact Or.inl ⟨rfl, _, rfl⟩
  | walk hNames hTarget =>
      cases hCarries
      exact hWhole rfl (P9Client.decodes_decodeWalk hFits).map
  | opened hFid hStat =>
      cases hCarries
      exact hWhole rfl (P9Client.decodes_decodeOpen _ _).map
  | create hFid hStep hFresh hOp hStat =>
      cases hCarries
      exact hWhole rfl (P9Client.decodes_decodeCreate _ _).map
  | read hFid hMode hAllowed hData hWindow =>
      cases hCarries
      exact hWhole rfl (P9Client.decodes_decodeRead hFits).map
  | write hFid hMode hAllowed hOp =>
      cases hCarries
      exact hWhole rfl (decodes_word32 _).map
  | stat hFid hStat =>
      cases hCarries
      exact hWhole rfl (decodes_decodeStat hFits).map
  | removeFailed hFid hOp | refused hRefusal =>
      exact Or.inr rfl
  | clone hFid =>
      cases hCarries

end Planten

------------------------------------------------------------
-- Calls on a Link
------------------------------------------------------------

namespace Planten

/- A client whose stream ends at a server. -/
abbrev Link :=
  P9Client Peer

namespace Link

/- A client that has just connected to a server. -/
def connected (srv : Server) : Link :=
  P9Client.new ⟨srv, []⟩

variable (hasher : Hasher) (conn : Nat)

/- The request that a call makes of the server. -/
def request
    (link : Link)
    (c : Call)
    (clock : Clock) : Event :=
  .request conn c.msgType link.nextTag c.body clock

/- The link after a call: the tag used, the request handled. -/
def after
    (link : Link)
    (c : Call)
    (clock : Clock) : Link :=
  ⟨link.nextTag + 1, [],
    ⟨link.peer.srv.step hasher (link.request conn c clock),
      []⟩⟩

/-
  Nothing is on the way, and the server serves the
  connection.
-/
structure InStep (link : Link) : Prop where
  incoming : link.incoming = []
  inbox : link.peer.inbox = []
  opened : (link.peer.srv.conns conn).isSome
  lock : link.peer.srv.poisoned = false
  sizes : link.peer.srv.SizesHold

/-
  A call is answered: the fields the server reads are its
  arguments, the bytes that arrive are the frame of the
  reply to it, and the call takes these and returns the
  value of the reply when it has the expected type.
-/
structure Answered
    (link : Link)
    (c : Call)
    (clock : Clock)
    (req : Request)
    (reply : Reply) : Prop where
  decoded : Request.decode c.msgType c.body = .ok req
  carried : req.Carries c
  stepped :
    Server.Step hasher link.peer.srv
      (link.request conn c clock) (some reply)
      (link.after hasher conn c clock).peer.srv
  delivered :
    Peer.deliver hasher conn clock link.peer
        (frameBytes c.msgType link.nextTag c.body) =
      ((link.after hasher conn c clock).peer,
        frameBytes reply.msgType link.nextTag reply.body)
  performed :
    c.perform (Peer.deliver hasher conn clock) link =
      if reply.msgType = c.expected then
        .ok reply.value (link.after hasher conn c clock)
      else
        .error
          (.io (unexpectedType reply.msgType c.expected))
          (link.after hasher conn c clock)

variable {hasher conn}

/-
  The server answers a call that fits, and keeps its
  connection.
-/
theorem step_of_call
    {link : Link}
    (hInStep : link.InStep conn)
    {c : Call}
    {req : Request}
    {clock : Clock}
    (hDecode : Request.decode c.msgType c.body = .ok req)
    (hCarries : req.Carries c)
    (hFits : c.Fits)
    (hClock : ∀ i, 0 ≤ clock i)
    (hUncut :
      ¬ link.peer.srv.Cuts hasher
        (link.request conn c clock)) :
    ∃ fids fids' reply,
      Effect hasher clock link.peer.srv.ramfs fids req
          (link.after hasher conn c clock).peer.srv.ramfs
          fids' reply ∧
        Server.Step hasher link.peer.srv
          (link.request conn c clock) (some reply)
          (link.after hasher conn c clock).peer.srv ∧
        (link.after hasher conn c clock).InStep conn := by
  rcases Option.isSome_iff_exists.mp hInStep.opened with
    ⟨fids, hConn⟩
  have hSafe (cause : Panic) (poisons : Bool) :
      ¬ Hazard hasher clock link.nextTag
          (link.peer.srv.session fids) req cause
          poisons := by
    intro hHazard
    exact hCarries.not_overflows hFits hClock
      (fun hCuts =>
        hUncut ⟨_, _, _,
          ⟨_, _, _, _, rfl, hConn, hDecode⟩, hCuts⟩)
      (hHazard.overflows hInStep.sizes.attrs hInStep.lock)
  rcases Server.served_of_safe hConn hDecode hSafe (by
      rintro _ _ _ _ err rfl
      cases hCarries with
      | walk hCount hRead =>
          exact walkNames_ne_error _ _ hRead _ _ _) with
    ⟨fs, fids', reply, hEffect, hStep, hAfter, _⟩
  have hSizes :=
    hInStep.sizes.step hasher (link.request conn c clock)
  unfold after
  unfold request at hSizes ⊢
  rw [hAfter] at hStep hSizes ⊢
  refine ⟨fids, fids', reply, hEffect, hStep, rfl, rfl, ?_,
    hInStep.lock, hSizes⟩
  simp only [Function.update_self, Option.isSome_some]

/- A call that fits is answered, and the link is in step. -/
theorem answered_of_call
    {link : Link}
    (hInStep : link.InStep conn)
    {c : Call}
    (hFits : c.Fits)
    {clock : Clock}
    (hClock : ∀ i, 0 ≤ clock i)
    (hUncut :
      ¬ link.peer.srv.Cuts hasher
        (link.request conn c clock)) :
    (∃ req reply,
      link.Answered hasher conn c clock req reply) ∧
      (link.after hasher conn c clock).InStep conn := by
  rcases c.decode_of_fits hFits with
    ⟨req, hDecode, hCarries⟩
  rcases step_of_call hInStep hDecode hCarries hFits hClock
    hUncut with
    ⟨fids, fids', reply, hEffect, hStep, hAfter⟩
  have hReadBack :=
    (Server.readBack_iff_not_cuts hStep).mpr hUncut
  rcases Server.sent_of_step hStep with
    ⟨frame, hFrame, hSent⟩
  rw [hSent, Reply.readBack_iff hFrame] at hReadBack
  rw [Reply.frame_of_fits hReadBack.1] at hFrame
  cases hFrame
  have hDeliver :
      Peer.deliver hasher conn clock link.peer
          (frameBytes c.msgType link.nextTag c.body) =
        ((link.after hasher conn c clock).peer,
          frameBytes reply.msgType link.nextTag
            reply.body) := by
    rw [Peer.deliver_of_frame hInStep.inbox hInStep.opened
      c.msgType link.nextTag hFits.body, ← hSent]
    rfl
  refine ⟨⟨req, reply, hDecode, hCarries, hStep, hDeliver,
    ?_⟩, hAfter⟩
  rw [← List.append_nil (frameBytes reply.msgType _ _)]
    at hDeliver
  rw [Call.perform_eq,
    run_call_of_reply hInStep.incoming hFits.body
      hReadBack.1 hDeliver]
  rcases hEffect.result_of_carries hCarries hReadBack.2 with
    ⟨hType, rest, hResult⟩ | hError
  · rw [if_pos hType, if_pos hType, hResult]
    rfl
  · have hType : reply.msgType ≠ c.expected := by
      rw [hError]
      exact c.expected_ne_rerror.symm
    rw [if_neg hType, if_neg hType]
    rfl

end Link

end Planten

------------------------------------------------------------
-- Runs of Calls
------------------------------------------------------------

namespace Planten

/-
  What happens on a link: the client makes a call, or an
  event takes place on another connection of the server.
-/
inductive Turn where
| call (c : Call) (clock : Clock)
| other (event : Event)

namespace Link

variable (hasher : Hasher) (conn : Nat)

/- A call leaves the link as it ends, well or not. -/
def step
    (link : Link) : Turn → Link
| .call c clock =>
    match c.perform (Peer.deliver hasher conn clock) link with
    | .ok _ link' => link'
    | .error _ link' => link'
| .other event =>
    { link with
      peer :=
        { link.peer with
          srv := link.peer.srv.step hasher event } }

/-
  The arguments of a call and the reply to it fit, and the
  clock is not before the epoch; another connection does not
  panic.
-/
def Fits
    (link : Link) : Turn → Prop
| .call c clock =>
    c.Fits ∧ (∀ i, 0 ≤ clock i) ∧
      ¬ link.peer.srv.Cuts hasher
        (link.request conn c clock)
| .other event =>
    event.conn ≠ conn ∧ ¬ link.peer.srv.Panics hasher event

/- The turn, when it is a call, is answered. -/
def Answers
    (link : Link) : Turn → Prop
| .call c clock =>
    ∃ req reply,
      link.Answered hasher conn c clock req reply
| .other _ => True

variable {hasher conn}

/- An answered call leaves the link in its state after it. -/
theorem Answered.step
    {link : Link}
    {c : Call}
    {clock : Clock}
    {req : Request}
    {reply : Reply}
    (hAnswered :
      link.Answered hasher conn c clock req reply) :
    link.step hasher conn (.call c clock) =
      link.after hasher conn c clock := by
  rw [Link.step, hAnswered.performed]
  by_cases hType : reply.msgType = c.expected
  · rw [if_pos hType]
  · rw [if_neg hType]

/- Events of other connections leave the link in step. -/
theorem InStep.other
    {link : Link}
    (hInStep : link.InStep conn)
    {event : Event}
    (hOther : event.conn ≠ conn)
    (hFinishes : ¬ link.peer.srv.Panics hasher event) :
    (link.step hasher conn (.other event)).InStep conn where
  incoming := hInStep.incoming
  inbox := hInStep.inbox
  opened := by
    have hOpened := hInStep.opened
    rwa [← Server.conns_step_of_ne hasher link.peer.srv
      hOther] at hOpened
  lock := (Server.poisoned_of_step hFinishes).trans
    hInStep.lock
  sizes := hInStep.sizes.step hasher event

/- A turn that fits keeps the link in step. -/
theorem InStep.step
    {link : Link}
    (hInStep : link.InStep conn)
    {turn : Turn}
    (hFits : link.Fits hasher conn turn) :
    (link.step hasher conn turn).InStep conn := by
  cases turn with
  | call c clock =>
      rcases hFits with ⟨hFits, hClock, hUncut⟩
      rcases answered_of_call hInStep hFits hClock hUncut with
        ⟨⟨req, reply, hAnswered⟩, hAfter⟩
      rwa [hAnswered.step]
  | other event =>
      exact hInStep.other hFits.1 hFits.2

/-
  On one connection of a server in any reachable state, in
  every sequence of calls that fit, every call is answered.
-/
theorem end_to_end
    (hasher : Hasher)
    {now : SystemTime}
    {fs : RamFs}
    (hNew : RamFs.new now = .ok fs)
    (events : List Event)
    {srv : Server}
    (hSrv :
      Run.final (Server.step hasher) (Server.start fs)
        events = srv)
    (hLock : srv.poisoned = false)
    {conn : Nat}
    (hOpen : (srv.conns conn).isSome)
    {turns : List Turn}
    (hFits :
      Run.Always (step hasher conn) (Fits hasher conn)
        (connected srv) turns) :
    Run.Always (step hasher conn) (Answers hasher conn)
      (connected srv) turns := by
  have hSizes : srv.SizesHold := by
    rw [← hSrv]
    exact (Server.sizesHold_start hNew).final hasher events
  have hStart : (connected srv).InStep conn :=
    ⟨rfl, rfl, hOpen, hLock, hSizes⟩
  apply Run.always_of_always _ ?_ ?_ hStart hFits
  · intro link turn hInStep hTurn
    exact hInStep.step hTurn
  · intro link turn hInStep hTurn
    cases turn with
    | call c clock =>
        exact (answered_of_call hInStep hTurn.1 hTurn.2.1
          hTurn.2.2).1
    | other event =>
        trivial

/-
  A client negotiates the version, attaches, and asks for the
  stat of a fid that is not bound.
-/
theorem end_to_end_of_unknownFid :
    Run.Always (step (fun _ _ => 0) 0)
      (Answers (fun _ _ => 0) 0)
      (connected
        (Run.final (Server.step (fun _ _ => 0))
          (Server.start (RamFs.fresh 0)) [.accept 0]))
      [.call (.version 8192 "9P2000") (fun _ => 0),
        .call (.attach 0 none "user" "") (fun _ => 0),
        .call (.stat 1) (fun _ => 0)] := by
  apply end_to_end (fun _ _ => 0)
    (RamFs.new_eq_fresh (le_refl 0)) [.accept 0] rfl rfl rfl
  refine ⟨⟨⟨by decide, by decide⟩, fun _ => le_refl 0, ?_⟩,
    ⟨⟨by decide, by decide⟩, fun _ => le_refl 0, ?_⟩,
    ⟨⟨by decide, by decide⟩, fun _ => le_refl 0, ?_⟩, trivial⟩
  · apply Server.not_cuts_of_decode
      (Request.decode_version 8192 (by decide))
    intro fids hConn hCuts
    cases hCuts
  · apply Server.not_cuts_of_decode
      (Request.decode_attach 0 none (by decide) (by decide))
    intro fids hConn hCuts
    cases hCuts
  · apply Server.not_cuts_of_decode (Request.decode_stat 1)
    intro fids hConn hCuts
    have hFids : fids = [(0, .new "/" ⟨0x80, 0, 0⟩)] := by
      apply Option.some.inj
      rw [← hConn]
      decide +kernel
    cases hCuts with
    | stat hFid hNode hLong =>
        rw [hFids] at hFid
        cases hFid

end Link

end Planten
