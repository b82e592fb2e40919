import Planten.Library.Simulations
import Planten.NineP.Client
import Planten.NineP.Streams

/-
  A client and whatever answers it.

  The other end of the stream may answer late, out of order,
  twice or not at all.  Up to the first call that finds no
  whole frame the calls of a client take the frames that
  arrive one by one, in order, and each returns what its own
  frame says, if that has the tag of its request.  Which
  request a value answers, and what becomes of a client that
  is a frame behind, depends on what the other end sends.

  Key definitions include:
    * `Call.takes`, `takesAll`
    * `P9Client.step`, `P9Client.returned`
    * `P9Client.heard`, `P9Client.Hears`
    * `P9Client.TakesInOrder`
    * `P9Client.Honest`, `Call.AnsweredBy`
    * `P9Client.OneForOne`, `P9Client.ReplyWaits`
    * `P9Client.Behind`

  Key theorems include:
    * `P9Client.perform_of_message`
    * `P9Client.TakesInOrder.concat`
    * `P9Client.takes_in_order`
    * `P9Client.never_confused`
    * `P9Client.never_back_in_step`
-/

------------------------------------------------------------
-- Conversations
------------------------------------------------------------

namespace Planten

/- The bytes of a message, as they were on the stream. -/
def RawMessage.bytes (msg : RawMessage) : Bytes :=
  frameBytes msg.msgType msg.tag msg.body

def mismatchedTag : Fault :=
  .io ⟨.invalidData, "mismatched tag"⟩

/- What a call with this tag makes of a message. -/
def Call.takes
    (c : Call)
    (tag : UInt16)
    (msg : RawMessage) : Except Fault Value :=
  if msg.tag ≠ tag then
    .error mismatchedTag
  else if msg.msgType ≠ c.expected then
    .error (.io (unexpectedType msg.msgType c.expected))
  else
    match c.result.run msg.body with
    | .ok (value, _) => .ok value
    | .error err => .error (.io err)

/- What calls make of messages, one of them each. -/
def takesAll :
    UInt16 → List Call → List RawMessage →
      List (Except Fault Value)
| tag, c :: calls, msg :: msgs =>
    c.takes tag msg :: takesAll (tag + 1) calls msgs
| _, _, _ => []

namespace P9Client

variable {σ : Type} (deliver : Delivery σ)

/- The client after a call, well or not. -/
def step
    (link : P9Client σ)
    (c : Call) : P9Client σ :=
  match c.perform deliver link with
  | .ok _ link' => link'
  | .error _ link' => link'

/- What a call returns. -/
def returned
    (link : P9Client σ)
    (c : Call) : Except Fault Value :=
  match c.perform deliver link with
  | .ok value _ => .ok value
  | .error fault _ => .error fault

/- The bytes that arrive when the request has been sent. -/
def heard
    (link : P9Client σ)
    (c : Call) : Bytes :=
  (deliver link.peer
    (frameBytes c.msgType link.nextTag c.body)).2

/- The client after a call that left these bytes unread. -/
def after
    (link : P9Client σ)
    (c : Call)
    (rest : Bytes) : P9Client σ :=
  ⟨link.nextTag + 1, rest,
    (deliver link.peer
      (frameBytes c.msgType link.nextTag c.body)).1⟩

/- A whole frame is there for the call. -/
def Hears
    (link : P9Client σ)
    (c : Call) : Prop :=
  ∃ msg rest,
    RawMessage.readFrom.run
        (link.incoming ++ heard deliver link c) =
      .ok (msg, rest)

/- All that arrives in the course of some calls. -/
def arrived
    (link : P9Client σ)
    (calls : List Call) : Bytes :=
  (Run.outputs (step deliver) (heard deliver) link
    calls).flatten

/-
  The calls have taken these messages, each of them the one
  at its own place among all that arrived, and what arrived
  behind these is not read.
-/
structure TakesInOrder
    (link : P9Client σ)
    (calls : List Call)
    (msgs : List RawMessage) : Prop where
  count : msgs.length = calls.length
  stream :
    link.incoming ++ arrived deliver link calls =
      msgs.flatMap RawMessage.bytes ++
        (Run.final (step deliver) link calls).incoming
  frames :
    ∀ msg ∈ msgs,
      Decoder.Decodes RawMessage.readFrom msg.bytes msg
  nextTag :
    (Run.final (step deliver) link calls).nextTag =
      link.nextTag + UInt16.ofNat calls.length
  outputs :
    Run.outputs (step deliver) (returned deliver) link
        calls =
      takesAll link.nextTag calls msgs

/-
  The other end sends nothing but answers to requests it has
  been sent, each with the tag of the request.
-/
def Honest
    (Answers : Nat → RawMessage → Prop)
    (peer : σ)
    (calls : List Call) : Prop :=
  ∀ before after msgs rest err,
    calls = before ++ after →
      Decoder.Drains RawMessage.readFrom
          (arrived deliver (P9Client.new peer) before) msgs
          rest err →
        ∀ msg ∈ msgs,
          ∃ i < before.length,
            msg.tag = UInt16.ofNat i ∧ Answers i msg

/- The other end answers every request with one frame. -/
def OneForOne : Prop :=
  ∀ peer msgType tag body,
    7 + body.length < 2 ^ 32 →
      ∃ peer' replyType replyBody,
        7 + replyBody.length < 2 ^ 32 ∧
          deliver peer (frameBytes msgType tag body) =
            (peer', frameBytes replyType tag replyBody)

/- The reply to the request of a call waits after it. -/
def ReplyWaits
    (link : P9Client σ)
    (c : Call) : Prop :=
  ∃ reply : RawMessage,
    Decoder.Decodes RawMessage.readFrom reply.bytes reply ∧
      reply.tag = link.nextTag ∧
      heard deliver link c = reply.bytes ∧
      (step deliver link c).incoming = reply.bytes

end P9Client

/-
  The call that follows `count` others has its value from a
  message that answers its own request, or one that is a
  multiple of 65536 calls back.
-/
def Call.AnsweredBy
    (Answers : Nat → RawMessage → Prop)
    (count : Nat)
    (c : Call)
    (msg : RawMessage)
    (value : Value) : Prop :=
  ∃ i rest,
    i ≤ count ∧
      i % 65536 = count % 65536 ∧
      Answers i msg ∧
      msg.msgType = c.expected ∧
      c.result.run msg.body = .ok (value, rest)

end Planten

------------------------------------------------------------
-- One Call
------------------------------------------------------------

namespace Planten

namespace P9Client

variable {σ : Type} {deliver : Delivery σ}
variable {link : P9Client σ} {c : Call}

/- A request waits for one message, and looks at its tag. -/
theorem run_sendAndWait_of_message
    {msg : RawMessage}
    {rest : Bytes}
    (hBody : 7 + c.body.length < 2 ^ 32)
    (hRead :
      RawMessage.readFrom.run
          (link.incoming ++ heard deliver link c) =
        .ok (msg, rest)) :
    sendAndWait deliver c.msgType c.body link =
      if msg.tag ≠ link.nextTag then
        .error mismatchedTag (after deliver link c rest)
      else
        .ok msg (after deliver link c rest) := by
  have hFrame :=
    buildFrame_of_fits c.msgType link.nextTag hBody
  unfold heard at hRead
  simp only [sendAndWait, ClientM.run_bind, takeTag, hFrame,
    writeAll, readMessage, hRead]
  split <;> rfl

/- A call takes one message off the stream. -/
theorem perform_of_message
    {msg : RawMessage}
    {rest : Bytes}
    (hBody : 7 + c.body.length < 2 ^ 32)
    (hRead :
      RawMessage.readFrom.run
          (link.incoming ++ heard deliver link c) =
        .ok (msg, rest)) :
    step deliver link c = after deliver link c rest ∧
      returned deliver link c = c.takes link.nextTag msg := by
  have hWait := run_sendAndWait_of_message hBody hRead
  rw [step, returned, Call.takes, Call.perform_eq, call,
    ClientM.run_bind, hWait]
  by_cases hTag : msg.tag = link.nextTag
  · rw [if_neg (not_not.mpr hTag), if_neg (not_not.mpr hTag)]
    simp only [ClientM.run_bind, ensureMsgType, decodeBody]
    by_cases hType : msg.msgType = c.expected
    · rw [if_neg (not_not.mpr hType),
        if_neg (not_not.mpr hType)]
      cases c.result.run msg.body with
      | error err =>
          exact ⟨rfl, rfl⟩
      | ok r =>
          exact ⟨rfl, rfl⟩
    · rw [if_pos hType, if_pos hType]
      exact ⟨rfl, rfl⟩
  · rw [if_pos hTag, if_pos hTag]
    exact ⟨rfl, rfl⟩

/- A call that finds no whole frame returns an error. -/
theorem returned_of_not_hears
    (hBody : 7 + c.body.length < 2 ^ 32)
    (hNone : ¬ Hears deliver link c) :
    ∃ err, returned deliver link c = .error (.io err) := by
  have hFrame :=
    buildFrame_of_fits c.msgType link.nextTag hBody
  cases hRead :
    RawMessage.readFrom.run
      (link.incoming ++ heard deliver link c) with
  | ok r =>
      exact absurd ⟨r.1, r.2, hRead⟩ hNone
  | error err =>
      refine ⟨err, ?_⟩
      unfold heard at hRead
      simp only [returned, Call.perform_eq, call, sendAndWait,
        ClientM.run_bind, takeTag, hFrame, writeAll,
        readMessage, hRead]

end P9Client

end Planten

------------------------------------------------------------
-- Conversations, Call by Call
------------------------------------------------------------

namespace Planten

open Decoder (Decodes Drains)

/- What is read is the head of the stream. -/
theorem decodes_of_read
    {cursor rest : Bytes}
    {msg : RawMessage}
    (hRead :
      RawMessage.readFrom.run cursor = .ok (msg, rest)) :
    cursor = msg.bytes ++ rest ∧
      Decodes RawMessage.readFrom msg.bytes msg := by
  rcases readFrom_ok hRead with ⟨hFits, hSize, hCursor⟩
  have hDecodes :=
    decodes_readFrom msg.msgType msg.tag hFits
  rw [← hSize] at hDecodes
  exact ⟨hCursor, hDecodes⟩

theorem takesAll_concat
    (tag : UInt16)
    (calls : List Call)
    (c : Call)
    {msgs : List RawMessage}
    (msg : RawMessage)
    (hLength : msgs.length = calls.length) :
    takesAll tag (calls ++ [c]) (msgs ++ [msg]) =
      takesAll tag calls msgs ++
        [c.takes (tag + UInt16.ofNat calls.length) msg] := by
  induction calls generalizing tag msgs with
  | nil =>
      cases List.length_eq_zero_iff.mp hLength
      simp [takesAll]
  | cons c' calls ih =>
      cases msgs with
      | nil =>
          cases hLength
      | cons msg' msgs =>
          have hTag :
              tag + 1 + UInt16.ofNat calls.length =
                tag + UInt16.ofNat (calls.length + 1) := by
            rw [UInt16.ofNat_add, UInt16.add_assoc,
              UInt16.add_comm 1]
            rfl
          rw [List.cons_append, List.cons_append, takesAll,
            ih _ (Nat.succ.inj hLength), takesAll,
            List.cons_append, List.length_cons, hTag]

namespace P9Client

variable {σ : Type} {deliver : Delivery σ}
variable {link : P9Client σ} {calls : List Call}

theorem arrived_concat
    (link : P9Client σ)
    (calls : List Call)
    (c : Call) :
    arrived deliver link (calls ++ [c]) =
      arrived deliver link calls ++
        heard deliver (Run.final (step deliver) link calls)
          c := by
  rw [arrived, Run.outputs_concat, List.flatten_append,
    arrived, List.flatten_singleton]

/- One more call takes one more message. -/
theorem TakesInOrder.concat
    {msgs : List RawMessage}
    {msg : RawMessage}
    {rest : Bytes}
    {c : Call}
    (hOrder : TakesInOrder deliver link calls msgs)
    (hBody : 7 + c.body.length < 2 ^ 32)
    (hRead :
      RawMessage.readFrom.run
          ((Run.final (step deliver) link calls).incoming ++
            heard deliver
              (Run.final (step deliver) link calls) c) =
        .ok (msg, rest)) :
    TakesInOrder deliver link (calls ++ [c])
      (msgs ++ [msg]) := by
  have hCall := perform_of_message hBody hRead
  have hMsg := decodes_of_read hRead
  refine ⟨?_, ?_, ?_, ?_, ?_⟩
  · rw [List.length_append, List.length_append,
      hOrder.count]
    rfl
  · rw [arrived_concat, ← List.append_assoc, hOrder.stream,
      List.append_assoc, hMsg.1, Run.final_concat,
      hCall.1, List.flatMap_append, List.append_assoc,
      List.flatMap_singleton]
    rfl
  · intro msg' hMem
    rcases List.mem_append.mp hMem with hOld | hNew
    · exact hOrder.frames msg' hOld
    · cases List.mem_singleton.mp hNew
      exact hMsg.2
  · rw [Run.final_concat, hCall.1, List.length_append,
      UInt16.ofNat_add, ← UInt16.add_assoc,
      ← hOrder.nextTag]
    rfl
  · rw [Run.outputs_concat, hOrder.outputs, hCall.2,
      hOrder.nextTag, takesAll_concat _ _ _ _ hOrder.count]

/- Calls that all find a frame take them in order. -/
theorem takes_in_order
    (hFits : ∀ c ∈ calls, 7 + c.body.length < 2 ^ 32)
    (hHears :
      Run.Always (step deliver) (Hears deliver) link calls) :
    ∃ msgs, TakesInOrder deliver link calls msgs := by
  induction calls using List.reverseRecOn with
  | nil =>
      refine ⟨[], rfl, List.append_nil _, ?_,
        (UInt16.add_zero _).symm, rfl⟩
      intro msg hMem
      cases hMem
  | append_singleton calls c ih =>
      rw [Run.always_append] at hHears
      have hRest :=
        ih
          (fun c' hMem => hFits c'
            (List.mem_append_left _ hMem))
          hHears.1
      rcases hRest with ⟨msgs, hOrder⟩
      rcases hHears.2.1 with ⟨msg, rest, hRead⟩
      exact ⟨msgs ++ [msg],
        hOrder.concat (hFits c (List.mem_concat_self ..))
          hRead⟩

end P9Client

end Planten

------------------------------------------------------------
-- Answers and Requests
------------------------------------------------------------

namespace Planten

open Decoder (Drains)

/- A call that returns a value has found it in the message. -/
theorem Call.of_takes
    {c : Call}
    {tag : UInt16}
    {msg : RawMessage}
    {value : Value}
    (hTakes : c.takes tag msg = .ok value) :
    msg.tag = tag ∧ msg.msgType = c.expected ∧
      ∃ rest, c.result.run msg.body = .ok (value, rest) := by
  unfold takes at hTakes
  split at hTakes
  · cases hTakes
  · rename_i hTag
    split at hTakes
    · cases hTakes
    · rename_i hType
      split at hTakes
      · rename_i value' rest hResult
        cases hTakes
        exact ⟨not_not.mp hTag, not_not.mp hType, rest,
          hResult⟩
      · cases hTakes

namespace P9Client

variable {σ : Type}

/-
  Where the other end sends nothing but answers to requests
  it has been sent, under their tags, the last of some calls
  has its value from an answer to its own request, or to one
  that is a multiple of 65536 calls back.
-/
theorem TakesInOrder.answeredBy
    {deliver : Delivery σ}
    {peer : σ}
    {before : List Call}
    {c : Call}
    {msgs : List RawMessage}
    {msg : RawMessage}
    {Answers : Nat → RawMessage → Prop}
    {value : Value}
    (hBefore :
      TakesInOrder deliver (P9Client.new peer) before msgs)
    (hOrder :
      TakesInOrder deliver (P9Client.new peer)
        (before ++ [c]) (msgs ++ [msg]))
    (hHonest :
      Honest deliver Answers peer (before ++ [c]))
    (hReturned :
      returned deliver
          (Run.final (step deliver) (P9Client.new peer)
            before) c =
        .ok value) :
    c.AnsweredBy Answers before.length msg value := by
  have hOutputs := hOrder.outputs
  rw [Run.outputs_concat, hReturned,
    takesAll_concat _ _ _ _ hBefore.count] at hOutputs
  have hTakes :=
    List.singleton_inj.mp
      (List.append_inj_right' hOutputs rfl)
  rcases Call.of_takes hTakes.symm with
    ⟨hTag, hType, rest, hResult⟩
  rcases Decoder.exists_drains shrinks_readFrom
      (Run.final (step deliver) (P9Client.new peer)
        (before ++ [c])).incoming with
    ⟨more, last, err, hLast⟩
  have hDrains := hLast.append hOrder.frames
  rw [← hOrder.stream, List.map_id'] at hDrains
  rcases hHonest _ _ _ _ _ (List.append_nil _).symm hDrains
      msg (by simp) with
    ⟨i, hLt, hSent, hAnswers⟩
  rw [List.length_append] at hLt
  refine ⟨i, rest, Nat.lt_succ_iff.mp hLt, ?_, hAnswers,
    hType, hResult⟩
  have hEq := congrArg UInt16.toNat (hSent.symm.trans hTag)
  rw [show (P9Client.new peer).nextTag = 0 from rfl,
    UInt16.zero_add] at hEq
  simpa using hEq

/-
  Up to the first call that finds no whole frame each call
  takes the frame at its own place, whatever arrives, and
  that first one returns an error.  Where the other end is
  honest, a call that returns a value has it from an answer
  to its own request, or to one that is a multiple of 65536
  calls back.
-/
theorem never_confused
    (deliver : Delivery σ)
    (peer : σ)
    (before : List Call)
    (c : Call)
    (hFits :
      ∀ c' ∈ before ++ [c], 7 + c'.body.length < 2 ^ 32)
    (hHears :
      Run.Always (step deliver) (Hears deliver)
        (P9Client.new peer) before) :
    ∃ msgs,
      TakesInOrder deliver (P9Client.new peer) before msgs ∧
        ((¬ Hears deliver
              (Run.final (step deliver) (P9Client.new peer)
                before) c ∧
            ∃ err,
              returned deliver
                  (Run.final (step deliver)
                    (P9Client.new peer) before) c =
                .error (.io err)) ∨
          ∃ msg,
            TakesInOrder deliver (P9Client.new peer)
                (before ++ [c]) (msgs ++ [msg]) ∧
              ∀ Answers value,
                Honest deliver Answers peer
                    (before ++ [c]) →
                  returned deliver
                      (Run.final (step deliver)
                        (P9Client.new peer) before) c =
                    .ok value →
                    c.AnsweredBy Answers before.length msg
                      value) := by
  have hBody := hFits c (List.mem_concat_self ..)
  have hSome :=
    takes_in_order
      (fun c' hMem => hFits c'
        (List.mem_append_left _ hMem))
      hHears
  rcases hSome with ⟨msgs, hBefore⟩
  refine ⟨msgs, hBefore, ?_⟩
  by_cases hLast :
    Hears deliver
      (Run.final (step deliver) (P9Client.new peer) before)
      c
  · rcases hLast with ⟨msg, rest, hRead⟩
    have hOrder := hBefore.concat hBody hRead
    exact .inr ⟨msg, hOrder,
      fun _ _ hHonest hReturned =>
        hBefore.answeredBy hOrder hHonest hReturned⟩
  · exact .inl ⟨hLast, returned_of_not_hears hBody hLast⟩

/- An other end that has its answers ready, one a request. -/
def prepared : Delivery (List Bytes) :=
  fun answers _ => (answers.tail, answers.headD [])

/- A clunk is answered, and then a flush. -/
def twoAnswers : List RawMessage :=
  [⟨7, RCLUNK, 0, []⟩, ⟨7, RFLUSH, 1, []⟩]

theorem honest_twoAnswers :
    Honest prepared (fun i msg => msg ∈ twoAnswers[i]?)
      (twoAnswers.map RawMessage.bytes)
      [.clunk 1, .flush 0] := by
  intro before after msgs rest err hCalls hDrains msg hMem
  rcases before with
    _ | ⟨c, _ | ⟨c', _ | ⟨c'', before⟩⟩⟩
  · cases (hDrains.unique (.stopped rfl)).1
    cases hMem
  · cases hCalls
    cases (hDrains.unique (.more rfl (.stopped rfl))).1
    cases List.mem_singleton.mp hMem
    exact ⟨0, by decide, rfl, rfl⟩
  · cases hCalls
    cases (hDrains.unique
      (.more rfl (.more rfl (.stopped rfl)))).1
    rcases List.mem_pair.mp hMem with rfl | rfl
    · exact ⟨0, by decide, rfl, rfl⟩
    · exact ⟨1, by decide, rfl, rfl⟩
  · cases hCalls

/- The flush has its value from the second answer. -/
theorem never_confused_of_twoAnswers :
    ∃ msgs msg,
      TakesInOrder prepared
          (P9Client.new (twoAnswers.map RawMessage.bytes))
          [.clunk 1, .flush 0] (msgs ++ [msg]) ∧
        (Call.flush 0).AnsweredBy
          (fun i msg => msg ∈ twoAnswers[i]?) 1 msg .unit := by
  rcases never_confused prepared
      (twoAnswers.map RawMessage.bytes) [.clunk 1]
      (.flush 0) (by decide) ⟨⟨_, _, rfl⟩, trivial⟩ with
    ⟨msgs, -, ⟨hNone, -⟩ | ⟨msg, hOrder, hAnswered⟩⟩
  · exact absurd ⟨_, _, rfl⟩ hNone
  · exact ⟨msgs, msg, hOrder,
      hAnswered _ _ honest_twoAnswers rfl⟩

end P9Client

end Planten

------------------------------------------------------------
-- Clients Out of Step
------------------------------------------------------------

namespace Planten

namespace P9Client

variable {σ : Type} {deliver : Delivery σ}

/- One frame waits for a call whose tag it does not have. -/
def Behind (link : P9Client σ) : Prop :=
  ∃ msg : RawMessage,
    link.incoming = msg.bytes ∧
      Decoder.Decodes RawMessage.readFrom msg.bytes msg ∧
      msg.tag ≠ link.nextTag

/-
  A call takes the frame that waits, and leaves the reply to
  its own request to the next one.
-/
theorem behind_step
    (hOneForOne : OneForOne deliver)
    {link : P9Client σ}
    {c : Call}
    (hBody : 7 + c.body.length < 2 ^ 32)
    (hBehind : Behind link) :
    Behind (step deliver link c) ∧
      ReplyWaits deliver link c ∧
      returned deliver link c = .error mismatchedTag := by
  rcases hBehind with ⟨msg, hIncoming, hDecodes, hOther⟩
  rcases hOneForOne link.peer c.msgType link.nextTag
      c.body hBody with
    ⟨peer, replyType, replyBody, hFits, hDeliver⟩
  have hRead :
      RawMessage.readFrom.run
          (link.incoming ++ heard deliver link c) =
        .ok (msg, frameBytes replyType link.nextTag
          replyBody) := by
    rw [heard, hDeliver, hIncoming]
    exact hDecodes _
  rcases perform_of_message hBody hRead with
    ⟨hStep, hReturned⟩
  have hReply :=
    decodes_readFrom replyType link.nextTag hFits
  refine ⟨?_, ?_, ?_⟩
  · rw [hStep]
    refine ⟨⟨frameSize replyBody, replyType, link.nextTag,
      replyBody⟩, rfl, hReply, ?_⟩
    intro hSame
    have hEq :
        link.nextTag.toNat =
          (link.nextTag.toNat + 1) % 65536 := by
      simpa [after] using congrArg UInt16.toNat hSame
    have hLt := link.nextTag.toNat_lt
    omega
  · refine ⟨⟨frameSize replyBody, replyType, link.nextTag,
      replyBody⟩, hReply, rfl, ?_, ?_⟩
    · rw [heard, hDeliver]
      rfl
    · rw [hStep]
      rfl
  · rw [hReturned, Call.takes, if_pos hOther]

/-
  With a peer that answers every request with one frame, a
  client that has fallen one frame behind stays behind: in
  every sequence of calls, each of them fails on the tag of
  an earlier reply, whatever its own reply says, and leaves
  its own reply to the next one.
-/
theorem never_back_in_step
    (deliver : Delivery σ)
    (link : P9Client σ)
    (calls : List Call)
    (hFits : ∀ c ∈ calls, 7 + c.body.length < 2 ^ 32)
    (hOneForOne : OneForOne deliver)
    (hBehind : Behind link) :
    Run.Always (step deliver)
      (fun link c =>
        returned deliver link c = .error mismatchedTag ∧
          ReplyWaits deliver link c)
      link calls := by
  induction calls generalizing link with
  | nil =>
      trivial
  | cons c calls ih =>
      have hStep :=
        behind_step hOneForOne
          (hFits c (List.mem_cons_self ..)) hBehind
      exact ⟨⟨hStep.2.2, hStep.2.1⟩,
        ih _
          (fun c' hMem =>
            hFits c' (List.mem_cons_of_mem c hMem))
          hStep.1⟩

/- An other end that clunks whatever it is asked. -/
def clunking : Delivery Unit :=
  fun _ frame =>
    match RawMessage.readFrom.run frame with
    | .ok (msg, _) => ((), frameBytes RCLUNK msg.tag [])
    | .error _ => ((), [])

/-
  The reply to an earlier request waits when a clunk is sent,
  and then the reply to the clunk waits for the next one.
-/
theorem never_back_in_step_of_lateReply :
    Run.Always (step clunking)
      (fun link c =>
        returned clunking link c = .error mismatchedTag ∧
          ReplyWaits clunking link c)
      ⟨1, frameBytes RCLUNK 0 [], ()⟩
      [.clunk 1, .clunk 2] := by
  refine never_back_in_step clunking _ _ (by decide) ?_
    ⟨⟨7, RCLUNK, 0, []⟩, rfl,
      decodes_readFrom RCLUNK 0 (by decide), by decide⟩
  intro peer msgType tag body hBody
  refine ⟨(), RCLUNK, [], by decide, ?_⟩
  have hRead := (decodes_readFrom msgType tag hBody).run_nil
  simp only [clunking, hRead]

end P9Client

end Planten
