import Planten.RamFs.EndToEnd
import Planten.Services.Dialogues
import Planten.Services.Peers

/-
  The client library and the pseudo servers, end to end.

  The four servers have field readers, loops and replies of
  their own.  On a connection of one of them every call ends
  in one of three ways: it takes the reply to its request off
  the stream and nothing else; its request runs into a hazard
  of the server, and the connection ends; or the connection
  has ended before.  What the other connections and the host
  do between two calls makes no difference to that.

  Key definitions include:
    * `Call.pseudo`
    * `Call.outcome`
    * `Loop.Cuts`
    * `PseudoServer.Ends`

  Key theorems include:
    * `Call.decode_pseudo`
    * `Loop.Effect.outcome`
    * `PseudoServer.ends_of_call`
    * `PseudoServer.every_call_ends`
-/

------------------------------------------------------------
-- Arguments and Fields
------------------------------------------------------------

namespace Planten

/-
  What the loops read of a call.  The calls they do not know
  are of one kind.
-/
def Call.pseudo : Call → PseudoRequest
| .version msize versionStr => .tversion msize versionStr
| .attach fid afid uname aname =>
    .tattach fid (afid.getD 0) uname aname
| .walk fid newfid names => .twalk fid newfid names
| .open' fid mode => .topen fid (some mode)
| .read fid offset count => .tread fid offset count
| .stat fid => .tstat fid
| .clunk fid => .tclunk fid
| _ => .unsupported

open Decoder (Decodes)

namespace PseudoRequest

theorem decodes_versionFields
    (msize : UInt32)
    {version : String}
    (hFits : version.utf8ByteSize ≤ 65535) :
    Decodes versionFields (encodeVersionBody msize version)
      (msize, version) := by
  refine (decodes_word32 _).bind ?_
  exact (decodes_text _ hFits).bind_pure

theorem decodes_attachFields
    (fid : UInt32)
    (afid : Option UInt32)
    {uname aname : String}
    (hUname : uname.utf8ByteSize ≤ 65535)
    (hAname : aname.utf8ByteSize ≤ 65535) :
    Decodes attachFields
      (encodeAttachBody fid afid uname aname)
      (fid, afid.getD 0, uname, aname) := by
  refine (decodes_word32 _).bind ?_
  refine (decodes_word32 _).bind ?_
  refine (decodes_text _ hUname).bind ?_
  exact (decodes_text _ hAname).bind_pure

/- All the names are read, and nothing is left. -/
theorem decodes_walkFields
    (fid newfid : UInt32)
    {names : List String}
    (hCount : names.length ≤ 65535)
    (hNames :
      ∀ name ∈ names, name.utf8ByteSize ≤ 65535) :
    Decodes walkFields (encodeWalkBody fid newfid names)
      (fid, newfid, names) := by
  have hLength :
      (UInt16.ofNat names.length).toNat = names.length := by
    simp
    omega
  refine (decodes_word32 _).bind ?_
  refine (decodes_word32 _).bind ?_
  refine (decodes_word16 _).bind ?_
  rw [hLength]
  exact (Decoder.decodes_many (fun name hMem =>
    decodes_text _ (hNames name hMem))).bind_pure

theorem decodes_readFields
    (fid : UInt32)
    (offset : UInt64)
    (count : UInt32) :
    Decodes readFields (encodeReadBody fid offset count)
      (fid, offset, count) := by
  refine (decodes_word32 _).bind ?_
  refine (decodes_word64 _).bind ?_
  exact (decodes_word32 _).bind_pure

end PseudoRequest

theorem run_decodeU32 (fid : UInt32) (rest : Bytes) :
    decodeU32.run (u32le fid ++ rest) = .ok (fid, rest) :=
  decodes_word32 fid rest

/- The loops read the arguments of a call that fits. -/
theorem Call.decode_pseudo
    {c : Call}
    (hArgs : c.ArgsFit) :
    PseudoRequest.decode c.msgType c.body =
      .ok c.pseudo := by
  cases c with
  | version msize versionStr =>
      change (PseudoRequest.versionFields.run
        (encodeVersionBody msize versionStr)).map _ = _
      rw [(PseudoRequest.decodes_versionFields msize
        hArgs).run_nil]
      rfl
  | attach fid afid uname aname =>
      change (PseudoRequest.attachFields.run
        (encodeAttachBody fid afid uname aname)).map _ = _
      rw [(PseudoRequest.decodes_attachFields fid afid
        hArgs.1 hArgs.2).run_nil]
      rfl
  | walk fid newfid names =>
      change (PseudoRequest.walkFields.run
        (encodeWalkBody fid newfid names)).map _ = _
      rw [(PseudoRequest.decodes_walkFields fid newfid
        hArgs.1 hArgs.2).run_nil]
      rfl
  | open' fid mode =>
      change (decodeU32.run (u32le fid ++ [mode])).map
        (fun r => PseudoRequest.topen r.1
          (u32le fid ++ [mode])[4]?) = _
      rw [run_decodeU32]
      rfl
  | read fid offset count =>
      change (PseudoRequest.readFields.run
        (encodeReadBody fid offset count)).map
          (fun r => PseudoRequest.tread r.1.1 r.1.2.1
            r.1.2.2) = _
      rw [(PseudoRequest.decodes_readFields fid offset
        count).run_nil]
      rfl
  | stat fid =>
      change (decodeU32.run (u32le fid)).map
        (fun r => PseudoRequest.tstat r.1) = _
      rw [← List.append_nil (u32le fid), run_decodeU32]
      rfl
  | clunk fid =>
      change (decodeU32.run (u32le fid)).map
        (fun r => PseudoRequest.tclunk r.1) = _
      rw [← List.append_nil (u32le fid), run_decodeU32]
      rfl
  | auth afid uname aname | create fid name perm mode
  | write fid offset data | wstat fid record | remove fid
  | flush oldtag =>
      rfl

end Planten

------------------------------------------------------------
-- What the Client Makes of a Reply
------------------------------------------------------------

namespace Planten

/-
  How a call ends on a reply.  The servers answer a client
  that asks for messages of no bytes with that size, and the
  client does not take it.
-/
def Call.outcome
    (c : Call)
    (reply : Reply) : Except IoError Value :=
  if reply.msgType ≠ c.expected then
    .error (unexpectedType reply.msgType c.expected)
  else
    match c with
    | .version msize _ =>
        if msize = 0 then
          .error ⟨.invalidData, "invalid negotiated msize"⟩
        else
          .ok reply.value
    | _ => .ok reply.value

variable {H : Type} {loop : Loop H}
variable {access : Access H} {fids fids' : FidTable}

/- Everything that cuts the lengths of the reply. -/
inductive Loop.Cuts
    (loop : Loop H)
    (access : Access H)
    (fids : FidTable) : PseudoRequest → Prop where
| read
    {fid : UInt32} {offset : UInt64} {count : UInt32}
    {state : FidState} {data : Bytes}
    (hFid : fids.lookup fid = some state)
    (hData :
      loop.fs.read (access.hosts 0) state.path = some data)
    (hLong :
      2 ^ 32 - 11 ≤
        min count.toNat (data.length - offset.toNat)) :
    Cuts loop access fids (.tread fid offset count)
| stat
    {fid : UInt32} {state : FidState} {inode : Attrs}
    (hFid : fids.lookup fid = some state)
    (hStat :
      loop.fs.stat (access.hosts 0) state.path =
        .ok (some inode))
    (hLong :
      65535 < (statRecord (loop.record state inode)).length) :
    Cuts loop access fids (.tstat fid)

/- A reply that is not cut fits its fields and its frame. -/
theorem Loop.Effect.fits
    {req : PseudoRequest}
    {reply : Reply}
    (hNames : req.names.length ≤ 65535)
    (hEffect : loop.Effect access fids req fids' reply)
    (hUncut : ¬ loop.Cuts access fids req) :
    7 + reply.body.length < 2 ^ 32 ∧ reply.Fits := by
  have hOfSmall (hSmall : reply.Small) :
      7 + reply.body.length < 2 ^ 32 := by
    unfold Reply.Small at hSmall
    omega
  cases hEffect with
  | version =>
      constructor
      · rw [length_body_versionReply]
        split <;> omega
      · unfold versionReply
        split <;> simp only [Reply.Fits] <;> decide
  | attach | opened hOpens hFid hFinds
  | openIgnored hOpens hFid | clunk =>
      exact ⟨by simp [Reply.body], trivial⟩
  | walk hCount hSteps hWalk =>
      have hLength := hCount.trans_le hNames
      exact ⟨hOfSmall (small_rwalk hLength), hLength⟩
  | read hFid hData =>
      rename_i fid offset count state data
      have hShort :
          min count.toNat (data.length - offset.toNat) <
            2 ^ 32 - 11 := by
        by_contra hLong
        exact hUncut (.read hFid hData (not_lt.mp hLong))
      simp only [Reply.body, Reply.Fits, List.length_append,
        length_u32le, List.length_take, List.length_drop]
      omega
  | stat hFid hStat =>
      rename_i fid state inode
      have hShort :
          (statRecord (loop.record state inode)).length ≤
            65535 := by
        by_contra hLong
        exact hUncut (.stat hFid hStat (not_le.mp hLong))
      refine ⟨?_, hShort⟩
      simp only [Reply.body, encodeStatPayload,
        List.length_append, length_u16le]
      omega
  | refused hRefusal =>
      have hShort := short_of_refusal hRefusal
      exact ⟨hOfSmall (small_rerror (by omega)),
        hShort.trans (by decide)⟩

theorem negotiated_lt_one_iff (msize : UInt32) :
    min msize MAX_MSG_SIZE < 1 ↔ msize = 0 := by
  change (if msize ≤ MAX_MSG_SIZE then
    msize else MAX_MSG_SIZE) < 1 ↔ _
  split
  · rw [UInt32.lt_iff_toNat_lt, ← UInt32.toNat_inj]
    exact Nat.lt_one_iff
  · rename_i hMore
    constructor
    · intro hLess
      exact absurd hLess (by decide)
    · rintro rfl
      exact absurd (by decide) hMore

/- A size of zero is refused, and any other is taken. -/
theorem run_decodeVersion
    (negotiated : UInt32)
    {version : String}
    (hFits : version.utf8ByteSize ≤ 65535) :
    P9Client.decodeVersion.run
        (u32le negotiated ++ encodeString version) =
      if negotiated < 1 then
        .error ⟨.invalidData, "invalid negotiated msize"⟩
      else
        .ok (version, []) := by
  have hSize :
      Decoder.Decodes decodeU32 (u32le negotiated)
        negotiated :=
    decodes_word32 negotiated
  have hText :
      Decoder.Decodes decodeString (encodeString version)
        version :=
    decodes_text _ hFits
  rw [P9Client.decodeVersion, hSize.run_bind,
    ← List.append_nil (encodeString version),
    hText.run_bind]
  split <;> rfl

/-
  A reply to a call that is of the expected type decodes to
  its value, but for a size of zero.
-/
theorem Loop.Effect.outcome
    {c : Call}
    {reply : Reply}
    (hEffect :
      loop.Effect access fids c.pseudo fids' reply)
    (hFits : reply.Fits)
    (hType : reply.msgType = c.expected) :
    (c.result.run reply.body).map Prod.fst =
      c.outcome reply := by
  have hWhole
      (hDecodes :
        Decoder.Decodes c.result reply.body reply.value) :
      (c.result.run reply.body).map Prod.fst =
        .ok reply.value := by
    rw [hDecodes.run_nil]
    rfl
  unfold Call.outcome
  rw [if_neg (not_not.mpr hType)]
  generalize hReq : c.pseudo = req at hEffect
  cases hEffect with
  | version =>
      cases c <;> cases hReq
      rename_i msize version
      have hVersion :
          (if version = VERSION_STRING then
            VERSION_STRING else "unknown").utf8ByteSize ≤
            65535 := by
        split <;> decide
      have hRun := run_decodeVersion
        (min msize MAX_MSG_SIZE) hVersion
      simp only [negotiated_lt_one_iff] at hRun
      rw [Call.result, StateT.run_map, versionReply,
        Reply.body, hRun]
      by_cases hZero : msize = 0
      · rw [if_pos hZero]
        simp only [if_pos hZero]
        rfl
      · rw [if_neg hZero]
        simp only [if_neg hZero]
        rfl
  | attach =>
      cases c <;> cases hReq
      rfl
  | walk hCount hSteps hWalk =>
      cases c <;> cases hReq
      exact hWhole (P9Client.decodes_decodeWalk hFits).map
  | opened hOpens hFid hFinds
  | openIgnored hOpens hFid =>
      cases c <;> cases hReq
      exact hWhole (P9Client.decodes_decodeOpen _ _).map
  | read hFid hData =>
      cases c <;> cases hReq
      exact hWhole (P9Client.decodes_decodeRead hFits).map
  | stat hFid hStat =>
      cases c <;> cases hReq
      exact hWhole (decodes_decodeStat hFits).map
  | clunk =>
      cases c <;> cases hReq
      exact hWhole (Decoder.decodes_pure _)
  | refused hRefusal =>
      exact absurd hType.symm c.expected_ne_rerror

end Planten

------------------------------------------------------------
-- Calls on a Connection
------------------------------------------------------------

namespace Planten

namespace PseudoServer

variable {Pid : Type} [DecidableEq Pid]
variable (pids : PidText Pid) (server : PseudoServer)
variable (envs : Nat → Access (server.Reading Pid))

/- How the server takes bytes, and what it sends back. -/
abbrev delivery : Delivery Service.Peer :=
  (server.service pids).deliver envs

/- A call leaves the link as it ends, well or not. -/
def linkStep
    (link : P9Client Service.Peer)
    (c : Call) : P9Client Service.Peer :=
  match c.perform (server.delivery pids envs) link with
  | .ok _ link' => link'
  | .error _ link' => link'

/- The arguments of a call and the reply to it fit. -/
def Fits
    (link : P9Client Service.Peer)
    (c : Call) : Prop :=
  c.Fits ∧
    ∀ fids,
      link.peer.fids = some fids →
        ¬ (server.loop pids).Cuts (envs link.peer.turns)
          fids c.pseudo

/-
  A call is answered: the bytes that arrive are the frame of
  the reply to what the server read of it, and the call takes
  these and ends as the reply says.
-/
structure Answered
    (link : P9Client Service.Peer)
    (c : Call)
    (fids fids' : FidTable)
    (reply : Reply) : Prop where
  effect :
    (server.loop pids).Effect (envs link.peer.turns) fids
      c.pseudo fids' reply
  delivered :
    server.delivery pids envs link.peer
        (frameBytes c.msgType link.nextTag c.body) =
      (⟨some fids', link.peer.turns + 1, []⟩,
        frameBytes reply.msgType link.nextTag reply.body)
  performed :
    c.perform (server.delivery pids envs) link =
      match c.outcome reply with
      | .ok value =>
          .ok value
            ⟨link.nextTag + 1, [],
              ⟨some fids', link.peer.turns + 1, []⟩⟩
      | .error err =>
          .error (.io err)
            ⟨link.nextTag + 1, [],
              ⟨some fids', link.peer.turns + 1, []⟩⟩

/- The three ways in which a call ends. -/
inductive Ends
    (link : P9Client Service.Peer)
    (c : Call) : Prop where
| answered
    {fids fids' : FidTable} {reply : Reply}
    (hFids : link.peer.fids = some fids)
    (hSafe :
      ¬ (server.loop pids).Hazard (envs link.peer.turns)
        fids c.pseudo)
    (hAnswered :
      Answered pids server envs link c fids fids' reply)
| lost
    {fids : FidTable}
    (hFids : link.peer.fids = some fids)
    (hHazard :
      (server.loop pids).Hazard (envs link.peer.turns) fids
        c.pseudo)
    (hPerformed :
      c.perform (server.delivery pids envs) link =
        .error (.io IoError.eof)
          ⟨link.nextTag + 1, [],
            ⟨none, link.peer.turns + 1, []⟩⟩)
| ended
    (hFids : link.peer.fids = none)
    (hPerformed :
      ∃ inbox,
        c.perform (server.delivery pids envs) link =
          .error (.io IoError.eof)
            ⟨link.nextTag + 1, [],
              ⟨none, link.peer.turns, inbox⟩⟩)

variable {pids server envs}
variable {link : P9Client Service.Peer} {c : Call}
variable {fids : FidTable}

/- A call without an answer is at the end of the stream. -/
theorem perform_of_silence
    (hInStep : Service.InStep link)
    (hFits : c.Fits)
    {peer : Service.Peer}
    (hDeliver :
      server.delivery pids envs link.peer
          (frameBytes c.msgType link.nextTag c.body) =
        (peer, [])) :
    c.perform (server.delivery pids envs) link =
      .error (.io IoError.eof)
        ⟨link.nextTag + 1, [], peer⟩ := by
  rw [Call.perform_eq,
    run_call_of_silence hInStep.incoming hFits.body hDeliver]

/- A request that runs into a hazard is not answered. -/
theorem answer_of_hazard
    {turn : Turn Pid server}
    {req : PseudoRequest}
    (hDecode :
      PseudoRequest.decode turn.msgType turn.body = .ok req)
    (hHazard :
      (server.loop pids).Hazard turn.env fids req) :
    (server.service pids).answer fids turn = none := by
  rcases @exchange_or_hazard _ _ pids server fids turn req
      hDecode with
    ⟨_, hNone⟩ | ⟨hSafe, _⟩
  · have hMap := @map_answer _ _ pids server fids turn
    rw [hNone] at hMap
    exact Option.map_eq_none_iff.mp hMap
  · exact absurd hHazard hSafe

/-
  A request without a hazard is answered, and the client ends
  as the reply says.
-/
theorem call_of_safe
    (hInStep : Service.InStep link)
    (hFids : link.peer.fids = some fids)
    (hFits : Fits pids server envs link c)
    (hSafe :
      ¬ (server.loop pids).Hazard (envs link.peer.turns)
        fids c.pseudo) :
    ∃ fids' reply,
      (server.loop pids).Effect (envs link.peer.turns) fids
          c.pseudo fids' reply ∧
        reply.Fits ∧
        server.delivery pids envs link.peer
            (frameBytes c.msgType link.nextTag c.body) =
          (⟨some fids', link.peer.turns + 1, []⟩,
            frameBytes reply.msgType link.nextTag
              reply.body) ∧
        ∀ {α : Type} (d : Decoder IoError α),
          call (server.delivery pids envs) c.msgType c.body
              c.expected d link =
            if reply.msgType = c.expected then
              match d.run reply.body with
              | .ok (a, _) =>
                  .ok a ⟨link.nextTag + 1, [],
                    ⟨some fids', link.peer.turns + 1, []⟩⟩
              | .error err =>
                  .error (.io err) ⟨link.nextTag + 1, [],
                    ⟨some fids', link.peer.turns + 1, []⟩⟩
            else
              .error
                (.io (unexpectedType reply.msgType
                  c.expected))
                ⟨link.nextTag + 1, [],
                  ⟨some fids', link.peer.turns + 1, []⟩⟩ := by
  have hInbox :=
    hInStep.inbox (Option.isSome_of_eq_some hFids)
  have hDecode := Call.decode_pseudo hFits.1.args
  have hNames :=
    PseudoRequest.length_names_of_decode hDecode
  rcases @exchange_or_hazard _ _ pids server fids
      ⟨envs link.peer.turns, c.msgType, link.nextTag,
        c.body⟩ _ hDecode with
    ⟨hHazard, _⟩ | ⟨_, fids', reply, hExchange⟩
  · exact absurd hHazard hSafe
  · have hEffect := effect_of_exchange hExchange
    have hReply :=
      hEffect.fits hNames (hFits.2 fids hFids)
    have hDeliver :
        server.delivery pids envs link.peer
            (frameBytes c.msgType link.nextTag c.body) =
          (⟨some fids', link.peer.turns + 1, []⟩,
            frameBytes reply.msgType link.nextTag
              reply.body) :=
      Service.deliver_of_answer hFids hInbox hFits.1.body
        ((answer_eq_some _).mpr ⟨_, _, hExchange,
          Reply.frame_of_fits hReply.1⟩)
    refine ⟨fids', reply, hEffect, hReply.2, hDeliver, ?_⟩
    intro α d
    rw [← List.append_nil (frameBytes reply.msgType _ _)]
      at hDeliver
    exact run_call_of_reply hInStep.incoming hFits.1.body
      hReply.1 hDeliver c.expected d

theorem answered_of_call
    (hInStep : Service.InStep link)
    (hFids : link.peer.fids = some fids)
    (hFits : Fits pids server envs link c)
    (hSafe :
      ¬ (server.loop pids).Hazard (envs link.peer.turns)
        fids c.pseudo) :
    ∃ fids' reply,
      Answered pids server envs link c fids fids' reply := by
  rcases call_of_safe hInStep hFids hFits hSafe with
    ⟨fids', reply, hEffect, hReply, hDeliver, hCall⟩
  refine ⟨fids', reply, hEffect, hDeliver, ?_⟩
  rw [Call.perform_eq, hCall]
  by_cases hType : reply.msgType = c.expected
  · have hOutcome := hEffect.outcome hReply hType
    rw [if_pos hType, ← hOutcome]
    cases c.result.run reply.body <;> rfl
  · unfold Call.outcome
    rw [if_neg hType, if_pos hType]

/- A call that fits ends, and leaves the link in step. -/
theorem ends_of_call
    (hInStep : Service.InStep link)
    (hFits : Fits pids server envs link c) :
    Ends pids server envs link c ∧
      Service.InStep (linkStep pids server envs link c) := by
  cases hFids : link.peer.fids with
  | none =>
      have hDeliver :=
        @Service.deliver_of_ended (server.service pids) envs
          link.peer hFids
          (frameBytes c.msgType link.nextTag c.body)
      have hPerformed :=
        perform_of_silence hInStep hFits.1 hDeliver
      refine ⟨.ended hFids ⟨_, hPerformed⟩, ?_⟩
      rw [linkStep, hPerformed]
      exact ⟨rfl, fun hSome => nomatch hSome⟩
  | some fids =>
      by_cases hSafe :
          ¬ (server.loop pids).Hazard (envs link.peer.turns)
            fids c.pseudo
      · rcases answered_of_call hInStep hFids hFits hSafe with
          ⟨fids', reply, hAnswered⟩
        refine ⟨.answered hFids hSafe hAnswered, ?_⟩
        rw [linkStep, hAnswered.performed]
        cases c.outcome reply <;>
          exact ⟨rfl, fun _ => rfl⟩
      · have hHazard := not_not.mp hSafe
        have hInbox :=
          hInStep.inbox (Option.isSome_of_eq_some hFids)
        have hPerformed :=
          perform_of_silence hInStep hFits.1
            (Service.deliver_of_silence hFids hInbox
              hFits.1.body
              (answer_of_hazard
                (Call.decode_pseudo hFits.1.args) hHazard))
        refine ⟨.lost hFids hHazard hPerformed, ?_⟩
        rw [linkStep, hPerformed]
        exact ⟨rfl, fun hSome => nomatch hSome⟩

end PseudoServer

end Planten

------------------------------------------------------------
-- Runs of Calls
------------------------------------------------------------

namespace Planten

namespace PseudoServer

variable {Pid : Type} [DecidableEq Pid]
variable (pids : PidText Pid) (server : PseudoServer)
variable (envs : Nat → Access (server.Reading Pid))

/- The request does not run into a hazard, if it is read. -/
def Safe
    (link : P9Client Service.Peer)
    (c : Call) : Prop :=
  ∀ fids,
    link.peer.fids = some fids →
      ¬ (server.loop pids).Hazard (envs link.peer.turns)
        fids c.pseudo

variable {pids server envs}
variable {link : P9Client Service.Peer}

/- A connection is kept by the calls that are safe. -/
theorem isSome_linkStep_iff
    (hInStep : Service.InStep link)
    {c : Call}
    (hFits : Fits pids server envs link c) :
    (linkStep pids server envs link c).peer.fids.isSome ↔
      link.peer.fids.isSome ∧
        Safe pids server envs link c := by
  rcases ends_of_call hInStep hFits with ⟨hEnds, _⟩
  cases hEnds with
  | answered hFids hSafe hAnswered =>
      rw [linkStep, hAnswered.performed, hFids]
      have hHere : Safe pids server envs link c := by
        intro fids hFids'
        cases hFids.symm.trans hFids'
        exact hSafe
      cases c.outcome _ <;> simp [hHere]
  | lost hFids hHazard hPerformed =>
      rw [linkStep, hPerformed]
      have hNot : ¬ Safe pids server envs link c :=
        fun hSafe => hSafe _ hFids hHazard
      simp [hNot]
  | ended hFids hPerformed =>
      rcases hPerformed with ⟨inbox, hPerformed⟩
      rw [linkStep, hPerformed, hFids]
      simp

/- A connection is kept by the runs that are safe. -/
theorem isSome_final_iff
    (hInStep : Service.InStep link)
    {calls : List Call}
    (hFits :
      Run.Always (linkStep pids server envs)
        (Fits pids server envs) link calls) :
    (Run.final (linkStep pids server envs) link
        calls).peer.fids.isSome ↔
      link.peer.fids.isSome ∧
        Run.Always (linkStep pids server envs)
          (Safe pids server envs) link calls := by
  induction calls generalizing link with
  | nil =>
      exact (and_true _).symm.to_iff
  | cons c calls ih =>
      rw [Run.final_cons,
        ih (ends_of_call hInStep hFits.1).2 hFits.2,
        isSome_linkStep_iff hInStep hFits.1, and_assoc]
      rfl

/-
  On a new connection of one of the four servers, in every
  sequence of calls that fit, every call ends in one of the
  three ways, and the connection is kept just when no request
  runs into a hazard.
-/
theorem every_call_ends
    (pids : PidText Pid)
    (server : PseudoServer)
    (envs : Nat → Access (server.Reading Pid))
    {calls : List Call}
    (hFits :
      Run.Always (linkStep pids server envs)
        (Fits pids server envs)
        (P9Client.new Service.accepted) calls) :
    Run.Always (linkStep pids server envs)
        (Ends pids server envs)
        (P9Client.new Service.accepted) calls ∧
      ((Run.final (linkStep pids server envs)
          (P9Client.new Service.accepted)
          calls).peer.fids.isSome ↔
        Run.Always (linkStep pids server envs)
          (Safe pids server envs)
          (P9Client.new Service.accepted) calls) := by
  have hStart : Service.InStep (P9Client.new Service.accepted) :=
    ⟨rfl, fun _ => rfl⟩
  constructor
  · apply Run.always_of_always _ ?_ ?_ hStart hFits
    · intro link c hInStep hHere
      exact (ends_of_call hInStep hHere).2
    · intro link c hInStep hHere
      exact (ends_of_call hInStep hHere).1
  · rw [isSome_final_iff hStart hFits]
    exact and_iff_right rfl

/-
  A client of the device server asks for messages of no
  bytes, attaches, walks to the null device and clunks it.
-/
theorem every_call_ends_on_null :
    Run.Always
      (linkStep (⟨id, Nat.repr⟩ : PidText Nat) .devfs
        (fun _ => idleAccess (fun _ => 0)))
      (Ends (⟨id, Nat.repr⟩ : PidText Nat) .devfs
        (fun _ => idleAccess (fun _ => 0)))
      (P9Client.new Service.accepted)
      [.version 0 "9P2000", .attach 0 none "user" "",
        .walk 0 1 ["null"], .clunk 1] := by
  refine And.left (every_call_ends _ .devfs _ ?_)
  refine ⟨⟨⟨by decide, by decide⟩, ?_⟩,
    ⟨⟨by decide, by decide⟩, ?_⟩,
    ⟨⟨by decide, by decide⟩, ?_⟩,
    ⟨⟨by decide, by decide⟩, ?_⟩, trivial⟩
  all_goals
    intro fids hFids hCuts
    cases hCuts

end PseudoServer

end Planten
