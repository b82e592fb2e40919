import Planten.RamFs.Outcomes

/-
  Errors are atomic, and every request has one reply.

  Key definitions include:
    * `Unreadable`
    * `Answered`
    * `Unchanged`

  Key theorems include:
    * `Unreadable.ofRequest`
    * `many_of_walkNames`
    * `Effect.answers`
    * `Effect.error_keeps`
    * `handleMessage_atomic`
-/

------------------------------------------------------------
-- Parse Errors
------------------------------------------------------------

namespace Planten

open Decoder (FailsIn)

/- The parse errors of a request body. -/
abbrev IoError.OfRequest (err : IoError) : Prop :=
  err.EofOrInvalid "invalid string"

theorem failsIn_readWord
    {α : Type}
    (width : Nat)
    (ofNat : Nat → α) :
    FailsIn (word width ofNat) IoError.OfRequest :=
  failsIn_word _ width ofNat

theorem failsIn_readString :
    FailsIn readString IoError.OfRequest :=
  failsIn_text _

theorem failsIn_versionFields :
    FailsIn versionFields IoError.OfRequest := by
  refine (failsIn_readWord 4 _).bind (fun msize => ?_)
  exact failsIn_readString.bind
    (fun version => Decoder.failsIn_pure _)

theorem failsIn_attachFields :
    FailsIn attachFields IoError.OfRequest := by
  refine (failsIn_readWord 4 _).bind (fun fid => ?_)
  refine (failsIn_readWord 4 _).bind (fun afid => ?_)
  refine failsIn_readString.bind (fun uname => ?_)
  exact failsIn_readString.bind
    (fun aname => Decoder.failsIn_pure _)

theorem failsIn_createFields :
    FailsIn createFields IoError.OfRequest := by
  refine (failsIn_readWord 4 _).bind (fun fid => ?_)
  refine failsIn_readString.bind (fun name => ?_)
  refine (failsIn_readWord 4 _).bind (fun perm => ?_)
  exact (failsIn_readWord 1 _).bind
    (fun mode => Decoder.failsIn_pure _)

theorem failsIn_cloneFields :
    FailsIn cloneFields IoError.OfRequest := by
  refine (failsIn_readWord 4 _).bind (fun fid => ?_)
  exact (failsIn_readWord 4 _).bind
    (fun newfid => Decoder.failsIn_pure _)

theorem failsIn_walkFields :
    FailsIn walkFields IoError.OfRequest := by
  refine (failsIn_readWord 4 _).bind (fun fid => ?_)
  refine (failsIn_readWord 4 _).bind (fun newfid => ?_)
  exact (failsIn_readWord 2 _).bind
    (fun nwname => Decoder.failsIn_pure _)

theorem failsIn_openFields :
    FailsIn openFields IoError.OfRequest := by
  refine (failsIn_readWord 4 _).bind (fun fid => ?_)
  exact (failsIn_readWord 1 _).bind
    (fun mode => Decoder.failsIn_pure _)

theorem failsIn_readFields :
    FailsIn readFields IoError.OfRequest := by
  refine (failsIn_readWord 4 _).bind (fun fid => ?_)
  refine (failsIn_readWord 8 _).bind (fun offset => ?_)
  exact (failsIn_readWord 4 _).bind
    (fun count => Decoder.failsIn_pure _)

theorem failsIn_writeFields :
    FailsIn writeFields IoError.OfRequest := by
  refine (failsIn_readWord 4 _).bind (fun fid => ?_)
  refine (failsIn_readWord 8 _).bind (fun offset => ?_)
  refine (failsIn_readWord 4 _).bind (fun count => ?_)
  exact (Decoder.failsIn_readExact
    (IoError.eofOrInvalid_eof _) _).bind
      (fun buffer => Decoder.failsIn_pure _)

namespace Request

/- Fields are unreadable if short or not UTF-8. -/
theorem ofRequest_of_decode
    {msgType : UInt8}
    {body : Bytes}
    {err : IoError}
    (hDecode : decode msgType body = .error err) :
    err.OfRequest := by
  revert hDecode
  unfold decode
  refine of_ite_eq (fun _ => failsIn_versionFields.of_map) ?_
  refine of_ite_eq (fun _ => failsIn_attachFields.of_map) ?_
  refine of_ite_eq (fun _ => failsIn_walkFields.of_map) ?_
  refine of_ite_eq (fun _ => failsIn_openFields.of_map) ?_
  refine of_ite_eq (fun _ => failsIn_readFields.of_map) ?_
  refine of_ite_eq (fun _ => failsIn_writeFields.of_map) ?_
  refine of_ite_eq (fun _ => (failsIn_readWord 4 _).of_map) ?_
  refine of_ite_eq (fun _ hEq => by cases hEq) ?_
  refine of_ite_eq (fun _ => (failsIn_readWord 4 _).of_map) ?_
  refine of_ite_eq (fun _ => (failsIn_readWord 4 _).of_map) ?_
  refine of_ite_eq (fun _ => (failsIn_readWord 4 _).of_map) ?_
  refine of_ite_eq (fun _ => failsIn_cloneFields.of_map) ?_
  refine of_ite_eq (fun _ => failsIn_createFields.of_map) ?_
  refine of_ite_eq (fun _ hEq => by cases hEq) ?_
  intro hEq
  cases hEq

end Request

/-
  The body of a request cannot be read: its fields cannot, or
  the names of a walk, which follow the fields.
-/
inductive Unreadable
    (msgType : UInt8)
    (body : Bytes)
    (err : IoError) : Prop where
| fields
    (hFields : Request.decode msgType body = .error err)
| names
    {fid newfid : UInt32} {nwname : UInt16} {names : Bytes}
    (hWalk :
      Request.decode msgType body =
        .ok (.twalk fid newfid nwname names))
    (hNames :
      (Decoder.many readString nwname.toNat).run names =
        .error err)

/- A body is unreadable because it is short or not UTF-8. -/
theorem Unreadable.ofRequest
    {msgType : UInt8}
    {body : Bytes}
    {err : IoError}
    (hUnreadable : Unreadable msgType body err) :
    err.OfRequest := by
  cases hUnreadable with
  | fields hFields =>
      exact Request.ofRequest_of_decode hFields
  | names hWalk hNames =>
      exact (failsIn_readString.many _) _ err hNames

/- A walk ends early where a name cannot be read. -/
theorem many_of_walkNames
    {hasher : Hasher}
    {fs : RamFs}
    {n : Nat}
    {cursor : Bytes}
    {path : String}
    {qids : List Qid}
    {err : IoError}
    (hNames :
      walkNames hasher fs n cursor path qids =
        .error err) :
    (Decoder.many readString n).run cursor = .error err := by
  induction n generalizing cursor path qids with
  | zero =>
      cases hNames
  | succ n ih =>
      rw [walkNames, bind_eq_error_iff] at hNames
      rw [Decoder.many, StateT.run_bind]
      rcases hNames with hName | ⟨⟨name, rest⟩, hName, hNames⟩
      · rw [hName]
        rfl
      · simp only at hNames
        split at hNames
        · split at hNames
          · have hRest := ih hNames
            rw [hName]
            change (Decoder.many readString n >>= fun tail =>
              pure (name :: tail)).run rest = _
            rw [StateT.run_bind, hRest]
            rfl
          · cases hNames
        · cases hNames

end Planten

------------------------------------------------------------
-- Replies
------------------------------------------------------------

namespace Planten

variable {hasher : Hasher} {clock : Clock}
variable {fs fs' : RamFs} {fids fids' : FidTable}
variable {req : Request} {reply : Reply}

/- A reply is of the type after the request, or an error. -/
theorem Effect.answers
    (hEffect : Effect hasher clock fs fids req fs' fids' reply) :
    (∃ t, req.msgType? = some t ∧ reply.msgType = t + 1) ∨
      ∃ message, reply = .rerror message := by
  cases hEffect with
  | removeFailed hFid hOp =>
      exact Or.inr ⟨_, rfl⟩
  | refused hRefusal =>
      exact Or.inr ⟨_, rfl⟩
  | version | auth | flush | attach | walk hNames hTarget
  | opened hFid hStat | create hFid hStep hFresh hOp hStat
  | read hFid hMode hAllowed hData hWindow
  | write hFid hMode hAllowed hOp | clunk
  | remove hFid hOp | stat hFid hStat
  | wstat hFid hRecord hOp | clone hFid =>
      exact Or.inl ⟨_, rfl, rfl⟩

/- An error leaves all but the fid of a remove alone. -/
theorem Effect.error_keeps
    (hEffect : Effect hasher clock fs fids req fs' fids' reply)
    (hError : reply.msgType = RERROR) :
    fs' = fs ∧
      (fids' = fids ∨
        ∃ fid, req = .tremove fid ∧
          (fids.lookup fid).isSome ∧
          fids' = KeyMap.erase fid fids) := by
  cases hEffect with
  | removeFailed hFid hOp =>
      exact ⟨RamFs.remove_eq_none hOp,
        Or.inr ⟨_, rfl, by rw [hFid]; rfl, rfl⟩⟩
  | refused hRefusal =>
      exact ⟨rfl, Or.inl rfl⟩
  | version | auth | flush | attach | walk hNames hTarget
  | opened hFid hStat | create hFid hStep hFresh hOp hStat
  | read hFid hMode hAllowed hData hWindow
  | write hFid hMode hAllowed hOp | clunk
  | remove hFid hOp | stat hFid hStat
  | wstat hFid hRecord hOp | clone hFid =>
      exact absurd hError (by
        simp only [Reply.msgType]
        decide)

/- A remove through a known fid drops the fid. -/
theorem Effect.remove_drops
    {fid : UInt32}
    (hEffect :
      Effect hasher clock fs fids (.tremove fid) fs' fids'
        reply)
    (hKnown : (fids.lookup fid).isSome) :
    fids' = KeyMap.erase fid fids := by
  cases hEffect with
  | remove hFid hOp =>
      rfl
  | removeFailed hFid hOp =>
      rfl
  | refused hRefusal =>
      cases hRefusal with
      | unknownFid hSource hNone =>
          cases hSource
          rw [hNone] at hKnown
          cases hKnown

end Planten

------------------------------------------------------------
-- Atomicity
------------------------------------------------------------

namespace Planten

/-
  A request has been answered: with one frame, which has the
  tag of the request and is of the type after it or an
  error, and which is read back whole when its body fits the
  size field.
-/
structure Answered
    (msgType : UInt8)
    (tag : UInt16)
    (sent sent' : Bytes)
    (replyType : UInt8) : Prop where
  paired : replyType = msgType + 1 ∨ replyType = RERROR
  once :
    ∃ replyBody frame,
      buildFrame replyType tag replyBody = .ok frame ∧
      sent' = sent ++ frame ∧
      (7 + replyBody.length < 2 ^ 32 →
        RawMessage.readFrom.run frame =
          .ok (⟨frameSize replyBody, replyType, tag,
            replyBody⟩, []))

/-
  Nothing but the fid of a remove through a known fid has
  changed.
-/
structure Unchanged
    (decoded : Except IoError Request)
    (s s' : Session) : Prop where
  ramfs : s'.ramfs = s.ramfs
  fids :
    s'.fids = s.fids ∨
      ∃ fid, decoded = .ok (.tremove fid) ∧
        (s.fids.lookup fid).isSome ∧
        s'.fids = KeyMap.erase fid s.fids

theorem answered_of_effect
    {hasher : Hasher}
    {clock : Clock}
    {msgType : UInt8}
    {tag : UInt16}
    {body sent frame : Bytes}
    {fs fs' : RamFs}
    {fids fids' : FidTable}
    {req : Request}
    {reply : Reply}
    (hDecode : Request.decode msgType body = .ok req)
    (hEffect :
      Effect hasher clock fs fids req fs' fids' reply)
    (hFrame : reply.frame tag = .ok frame) :
    Answered msgType tag sent (sent ++ frame)
      reply.msgType := by
  constructor
  · rcases hEffect.answers with
      ⟨t, hType, hReply⟩ | ⟨message, rfl⟩
    · rcases Request.decode_msgType hDecode with
        rfl | hMsgType
      · cases hType
      · rw [hType] at hMsgType
        rw [hReply, Option.some.inj hMsgType]
        exact Or.inl rfl
    · exact Or.inr rfl
  · refine ⟨reply.body, frame, hFrame, rfl, ?_⟩
    intro hFits
    rw [Reply.frame_of_fits hFits] at hFrame
    cases hFrame
    exact (decodes_readFrom _ _ hFits).run_nil

/-
  A handler that does not panic sends one reply, or ends with
  a parse error because the body cannot be read, and an error
  changes nothing but the fid of a remove, which goes in any
  case.
-/
theorem handleMessage_atomic
    (hasher : Hasher)
    (clock : Clock)
    (msgType : UInt8)
    (tag : UInt16)
    (body : Bytes)
    (s : Session) :
    match handleMessage hasher clock msgType tag body s with
    | .ok () s' =>
        ∃ replyType,
          Answered msgType tag s.sent s'.sent replyType ∧
          (replyType = RERROR →
            Unchanged (Request.decode msgType body) s s') ∧
          ∀ fid,
            Request.decode msgType body =
                .ok (.tremove fid) →
              (s.fids.lookup fid).isSome →
                s'.fids = KeyMap.erase fid s.fids
    | .error (.io err) s' =>
        Unreadable msgType body err ∧ err.OfRequest ∧ s' = s
    | .error (.panic _) _ => True := by
  have hOutcome :=
    handleMessage_outcome hasher clock tag body s msgType
  revert hOutcome
  generalize hDecode : Request.decode msgType body = decoded
  generalize handleMessage hasher clock msgType tag body s =
    result
  intro hOutcome
  cases hOutcome with
  | malformed err =>
      have hBody : Unreadable msgType body err :=
        .fields hDecode
      exact ⟨hBody, hBody.ofRequest, rfl⟩
  | badName hNames =>
      have hBody : Unreadable msgType body _ :=
        .names hDecode (many_of_walkNames hNames)
      exact ⟨hBody, hBody.ofRequest, rfl⟩
  | panicked hHazard =>
      trivial
  | served hEffect hFrame =>
      refine ⟨_, answered_of_effect hDecode hEffect hFrame,
        ?_, ?_⟩
      · intro hError
        rcases hEffect.error_keeps hError with
          ⟨hFs, hFids | ⟨fid, rfl, hKnown, hFids⟩⟩
        · exact ⟨hFs, Or.inl hFids⟩
        · exact ⟨hFs, Or.inr ⟨fid, rfl, hKnown, hFids⟩⟩
      · intro fid hRemove hKnown
        cases hRemove
        exact hEffect.remove_drops hKnown

end Planten
