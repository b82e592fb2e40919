import Planten.NineP.Frame
import Planten.NineP.Messages
import Planten.NineP.Requests

/-
  The 9P client library.

  A client writes one request frame and waits for one frame.
  What is at the other end of its stream is a parameter: a
  state, and the way it takes the bytes written and the bytes
  it sends back.  A frame that cannot be read ends the use of
  the stream.

  Key definitions include:
    * `P9Client`
    * `sendAndWait`
    * `P9Client.version` to `P9Client.flush`
    * `Call`
    * `Call.perform`

  Key theorems include:
    * `Call.perform_eq`
    * `run_sendAndWait_of_reply`
    * `run_call_of_reply`
-/

------------------------------------------------------------
-- Clients
------------------------------------------------------------

namespace Planten

/-
  A client: its next tag, the bytes that have arrived and
  are not read, and the other end of its stream.
-/
structure P9Client (σ : Type) where
  nextTag : UInt16
  incoming : Bytes
  peer : σ

/- A client that has just connected. -/
def P9Client.new
    {σ : Type}
    (peer : σ) : P9Client σ :=
  ⟨0, [], peer⟩

abbrev ClientM (σ α : Type) :=
  EStateM Fault (P9Client σ) α

/- How the other end takes bytes, and what it sends back. -/
abbrev Delivery (σ : Type) :=
  σ → Bytes → σ × Bytes

variable {σ α β : Type}

/- `next_tag`; the tag wraps. -/
def takeTag : ClientM σ UInt16 :=
  fun c => .ok c.nextTag { c with nextTag := c.nextTag + 1 }

def writeAll
    (deliver : Delivery σ)
    (frame : Bytes) : ClientM σ Unit :=
  fun c =>
    let (peer, arrived) := deliver c.peer frame
    .ok () ⟨c.nextTag, c.incoming ++ arrived, peer⟩

/- `RawMessage::read_from` on the stream. -/
def readMessage : ClientM σ RawMessage :=
  fun c =>
    match RawMessage.readFrom.run c.incoming with
    | .ok (msg, rest) => .ok msg { c with incoming := rest }
    | .error err => .error (.io err) c

def sendAndWait
    (deliver : Delivery σ)
    (msgType : UInt8)
    (body : Bytes) : ClientM σ RawMessage := do
  let tag ← takeTag
  match buildFrame msgType tag body with
  | .error cause => throw (.panic cause)
  | .ok frame =>
      writeAll deliver frame
      let response ← readMessage
      if response.tag ≠ tag then
        throw (.io ⟨.invalidData, "mismatched tag"⟩)
      else
        pure response

/- `{:#x}` of a byte. -/
def hexByte (x : UInt8) : String :=
  "0x" ++ String.ofList (Nat.toDigits 16 x.toNat)

/- The error of a response of another type. -/
def unexpectedType (msgType expected : UInt8) : IoError :=
  ⟨.invalidData, "unexpected message type " ++
    hexByte msgType ++ ", expected " ++ hexByte expected⟩

def ensureMsgType
    (response : RawMessage)
    (expected : UInt8) : ClientM σ Unit :=
  if response.msgType ≠ expected then
    throw (.io (unexpectedType response.msgType expected))
  else
    pure ()

/- Decode the body of a response; what is left is ignored. -/
def decodeBody
    (d : Decoder IoError α)
    (body : Bytes) : ClientM σ α :=
  match d.run body with
  | .ok (a, _) => pure a
  | .error err => throw (.io err)

/-
  The calls of the library: send a request, wait for the
  response, check its type and decode its body.
-/
def call
    (deliver : Delivery σ)
    (msgType : UInt8)
    (body : Bytes)
    (expected : UInt8)
    (d : Decoder IoError α) : ClientM σ α := do
  let response ← sendAndWait deliver msgType body
  ensureMsgType response expected
  decodeBody d response.body

end Planten

------------------------------------------------------------
-- Calls
------------------------------------------------------------

namespace Planten

namespace P9Client

def decodeVersion : Decoder IoError String := do
  let negotiated ← decodeU32
  let negotiatedVersion ← decodeString
  if negotiated < 1 then
    throw ⟨.invalidData, "invalid negotiated msize"⟩
  pure negotiatedVersion

/- The qids of a walk are counted and dropped. -/
def decodeWalk : Decoder IoError Nat := do
  let nwqid ← decodeU16
  let _ ← Decoder.many decodeQid nwqid.toNat
  pure nwqid.toNat

def decodeOpen : Decoder IoError UInt32 := do
  let _ ← decodeQid
  decodeU32

def decodeCreate : Decoder IoError (Qid × UInt32) := do
  let qid ← decodeQid
  let iounit ← decodeU32
  pure (qid, iounit)

def decodeRead : Decoder IoError Bytes := do
  let dataLen ← decodeU32
  Decoder.readExact IoError.eof dataLen.toNat

open Decoder (Decodes)

theorem decodes_decodeWalk
    {qids : List Qid}
    (hCount : qids.length ≤ 65535) :
    Decodes decodeWalk
      (u16le (UInt16.ofNat qids.length) ++
        qids.flatMap encodeQidBytes)
      qids.length := by
  have hLength :
      (UInt16.ofNat qids.length).toNat = qids.length := by
    simp
    omega
  refine (decodes_word16 _).bind ?_
  rw [hLength]
  exact (Decoder.decodes_many
    (fun qid _ => decodes_decodeQid qid)).bind_pure

theorem decodes_decodeOpen
    (qid : Qid)
    (iounit : UInt32) :
    Decodes decodeOpen (encodeQidBytes qid ++ u32le iounit)
      iounit := by
  refine (decodes_decodeQid _).bind ?_
  exact decodes_word32 _

theorem decodes_decodeCreate
    (qid : Qid)
    (iounit : UInt32) :
    Decodes decodeCreate (encodeQidBytes qid ++ u32le iounit)
      (qid, iounit) := by
  refine (decodes_decodeQid _).bind ?_
  exact (decodes_word32 _).bind_pure

theorem decodes_decodeRead
    {data : Bytes}
    (hFits : data.length < 2 ^ 32) :
    Decodes decodeRead
      (u32le (UInt32.ofNat data.length) ++ data) data := by
  have hLength :
      data.length = (UInt32.ofNat data.length).toNat := by
    simp
    omega
  refine (decodes_word32 _).bind ?_
  exact Decoder.decodes_readExact _ hLength

variable {σ : Type} (deliver : Delivery σ)

def version
    (msize : UInt32)
    (versionStr : String) : ClientM σ String :=
  call deliver TVERSION (encodeVersionBody msize versionStr)
    RVERSION decodeVersion

def auth
    (afid : UInt32)
    (uname aname : String) : ClientM σ Qid :=
  call deliver TAUTH (encodeAuthBody afid uname aname) RAUTH
    decodeQid

def attach
    (fid : UInt32)
    (afid : Option UInt32)
    (uname aname : String) : ClientM σ Unit :=
  call deliver TATTACH (encodeAttachBody fid afid uname aname)
    RATTACH (pure ())

def walk
    (fid newfid : UInt32)
    (names : List String) : ClientM σ Nat :=
  call deliver TWALK (encodeWalkBody fid newfid names) RWALK
    decodeWalk

def open'
    (fid : UInt32)
    (mode : UInt8) : ClientM σ UInt32 :=
  call deliver TOPEN (encodeOpenBody fid mode) ROPEN
    decodeOpen

def create
    (fid : UInt32)
    (name : String)
    (perm : UInt32)
    (mode : UInt8) : ClientM σ (Qid × UInt32) :=
  call deliver TCREATE (encodeCreateBody fid name perm mode)
    RCREATE decodeCreate

def read
    (fid : UInt32)
    (offset : UInt64)
    (count : UInt32) : ClientM σ Bytes :=
  call deliver TREAD (encodeReadBody fid offset count) RREAD
    decodeRead

def write
    (fid : UInt32)
    (offset : UInt64)
    (data : Bytes) : ClientM σ UInt32 :=
  call deliver TWRITE (encodeWriteBody fid offset data) RWRITE
    decodeU32

def clunk (fid : UInt32) : ClientM σ Unit :=
  call deliver TCLUNK (encodeClunkBody fid) RCLUNK (pure ())

def stat (fid : UInt32) : ClientM σ Stat :=
  call deliver TSTAT (encodeStatBody fid) RSTAT decodeStat

def wstat
    (fid : UInt32)
    (stat : Stat) : ClientM σ Unit :=
  call deliver TWSTAT (encodeWstatBody fid stat) RWSTAT
    (pure ())

def remove (fid : UInt32) : ClientM σ Unit :=
  call deliver TREMOVE (encodeRemoveBody fid) RREMOVE
    (pure ())

def flush (oldtag : UInt16) : ClientM σ Unit :=
  call deliver TFLUSH (encodeFlushBody oldtag) RFLUSH
    (pure ())

end P9Client

end Planten

------------------------------------------------------------
-- Calls as Values
------------------------------------------------------------

namespace Planten

/- A call of the library, with its arguments. -/
inductive Call where
| version (msize : UInt32) (versionStr : String)
| auth (afid : UInt32) (uname aname : String)
| attach (fid : UInt32) (afid : Option UInt32)
    (uname aname : String)
| walk (fid newfid : UInt32) (names : List String)
| open' (fid : UInt32) (mode : UInt8)
| create (fid : UInt32) (name : String) (perm : UInt32)
    (mode : UInt8)
| read (fid : UInt32) (offset : UInt64) (count : UInt32)
| write (fid : UInt32) (offset : UInt64) (data : Bytes)
| clunk (fid : UInt32)
| stat (fid : UInt32)
| wstat (fid : UInt32) (record : Stat)
| remove (fid : UInt32)
| flush (oldtag : UInt16)
deriving DecidableEq, Repr

/- What a call returns. -/
inductive Value where
| unit
| version (versionStr : String)
| qid (qid : Qid)
| count (nwqid : Nat)
| iounit (iounit : UInt32)
| created (qid : Qid) (iounit : UInt32)
| data (data : Bytes)
| written (count : UInt32)
| stat (stat : Stat)
deriving DecidableEq, Repr

namespace Call

/- The type of the request. -/
def msgType : Call → UInt8
| version _ _ => TVERSION
| auth _ _ _ => TAUTH
| attach _ _ _ _ => TATTACH
| walk _ _ _ => TWALK
| open' _ _ => TOPEN
| create _ _ _ _ => TCREATE
| read _ _ _ => TREAD
| write _ _ _ => TWRITE
| clunk _ => TCLUNK
| stat _ => TSTAT
| wstat _ _ => TWSTAT
| remove _ => TREMOVE
| flush _ => TFLUSH

/- The body of the request. -/
def body : Call → Bytes
| version msize versionStr =>
    encodeVersionBody msize versionStr
| auth afid uname aname => encodeAuthBody afid uname aname
| attach fid afid uname aname =>
    encodeAttachBody fid afid uname aname
| walk fid newfid names => encodeWalkBody fid newfid names
| open' fid mode => encodeOpenBody fid mode
| create fid name perm mode =>
    encodeCreateBody fid name perm mode
| read fid offset count => encodeReadBody fid offset count
| write fid offset data => encodeWriteBody fid offset data
| clunk fid => encodeClunkBody fid
| stat fid => encodeStatBody fid
| wstat fid record => encodeWstatBody fid record
| remove fid => encodeRemoveBody fid
| flush oldtag => encodeFlushBody oldtag

/- The type of the response the call expects. -/
def expected : Call → UInt8
| version _ _ => RVERSION
| auth _ _ _ => RAUTH
| attach _ _ _ _ => RATTACH
| walk _ _ _ => RWALK
| open' _ _ => ROPEN
| create _ _ _ _ => RCREATE
| read _ _ _ => RREAD
| write _ _ _ => RWRITE
| clunk _ => RCLUNK
| stat _ => RSTAT
| wstat _ _ => RWSTAT
| remove _ => RREMOVE
| flush _ => RFLUSH

/- No call expects an error. -/
theorem expected_ne_rerror (c : Call) :
    c.expected ≠ RERROR := by
  cases c <;> simp only [expected] <;> decide

/- What the call makes of the body of the response. -/
def result : Call → Decoder IoError Value
| version _ _ => Value.version <$> P9Client.decodeVersion
| auth _ _ _ => Value.qid <$> decodeQid
| walk _ _ _ => Value.count <$> P9Client.decodeWalk
| open' _ _ => Value.iounit <$> P9Client.decodeOpen
| create _ _ _ _ =>
    (fun r => Value.created r.1 r.2) <$> P9Client.decodeCreate
| read _ _ _ => Value.data <$> P9Client.decodeRead
| write _ _ _ => Value.written <$> decodeU32
| stat _ => Value.stat <$> decodeStat
| _ => pure .unit

variable {σ : Type} (deliver : Delivery σ)

/- Make the call. -/
def perform : Call → ClientM σ Value
| version msize versionStr =>
    Value.version <$> P9Client.version deliver msize versionStr
| auth afid uname aname =>
    Value.qid <$> P9Client.auth deliver afid uname aname
| attach fid afid uname aname =>
    (fun _ => Value.unit) <$>
      P9Client.attach deliver fid afid uname aname
| walk fid newfid names =>
    Value.count <$> P9Client.walk deliver fid newfid names
| open' fid mode =>
    Value.iounit <$> P9Client.open' deliver fid mode
| create fid name perm mode =>
    (fun r => Value.created r.1 r.2) <$>
      P9Client.create deliver fid name perm mode
| read fid offset count =>
    Value.data <$> P9Client.read deliver fid offset count
| write fid offset data =>
    Value.written <$> P9Client.write deliver fid offset data
| clunk fid =>
    (fun _ => Value.unit) <$> P9Client.clunk deliver fid
| stat fid => Value.stat <$> P9Client.stat deliver fid
| wstat fid record =>
    (fun _ => Value.unit) <$>
      P9Client.wstat deliver fid record
| remove fid =>
    (fun _ => Value.unit) <$> P9Client.remove deliver fid
| flush oldtag =>
    (fun _ => Value.unit) <$> P9Client.flush deliver oldtag

end Call

end Planten

------------------------------------------------------------
-- One Shape of All Calls
------------------------------------------------------------

namespace Planten

variable {σ α β : Type}

/- What is done with the value may be done in the decoder. -/
theorem map_call
    (deliver : Delivery σ)
    (msgType : UInt8)
    (body : Bytes)
    (expected : UInt8)
    (d : Decoder IoError α)
    (f : α → β) :
    f <$> call deliver msgType body expected d =
      call deliver msgType body expected (f <$> d) := by
  have hBody (body : Bytes) :
      f <$> (decodeBody d body : ClientM σ α) =
        decodeBody (f <$> d) body := by
    unfold decodeBody
    rw [StateT.run_map]
    cases d.run body with
    | error err =>
        rfl
    | ok r =>
        rfl
  simp only [call, map_bind, hBody]

/- Every call has the same shape. -/
theorem Call.perform_eq
    (deliver : Delivery σ)
    (c : Call) :
    c.perform deliver =
      call deliver c.msgType c.body c.expected c.result := by
  cases c <;> exact map_call ..

end Planten

------------------------------------------------------------
-- Replies
------------------------------------------------------------

namespace Planten

variable {σ α β : Type}

@[simp] theorem ClientM.run_bind
    (x : ClientM σ α)
    (f : α → ClientM σ β)
    (c : P9Client σ) :
    (x >>= f) c =
      match x c with
      | .ok a c' => f a c'
      | .error e c' => .error e c' := by
  change EStateM.bind x f c = _
  unfold EStateM.bind
  cases x c with
  | ok a c' =>
      rfl
  | error e c' =>
      rfl

/-
  A client that is answered with its own tag takes the reply
  off its stream, and nothing after it.
-/
theorem run_sendAndWait_of_reply
    {deliver : Delivery σ}
    {c : P9Client σ}
    {msgType replyType : UInt8}
    {body replyBody rest : Bytes}
    {peer : σ}
    (hIncoming : c.incoming = [])
    (hBody : 7 + body.length < 2 ^ 32)
    (hReply : 7 + replyBody.length < 2 ^ 32)
    (hDeliver :
      deliver c.peer (frameBytes msgType c.nextTag body) =
        (peer,
          frameBytes replyType c.nextTag replyBody ++
            rest)) :
    sendAndWait deliver msgType body c =
      .ok ⟨frameSize replyBody, replyType, c.nextTag,
          replyBody⟩
        ⟨c.nextTag + 1, rest, peer⟩ := by
  have hFrame := buildFrame_of_fits msgType c.nextTag hBody
  have hRead :=
    decodes_readFrom replyType c.nextTag hReply rest
  simp only [sendAndWait, takeTag, ClientM.run_bind, hFrame,
    writeAll, hDeliver, hIncoming, List.nil_append,
    readMessage, hRead]
  rw [if_neg (not_not.mpr rfl)]
  rfl

/-
  Such a call ends as the type of the reply says: a reply of
  the expected type is decoded, and any other is an error.
-/
theorem run_call_of_reply
    {deliver : Delivery σ}
    {c : P9Client σ}
    {msgType replyType : UInt8}
    {body replyBody rest : Bytes}
    {peer : σ}
    (hIncoming : c.incoming = [])
    (hBody : 7 + body.length < 2 ^ 32)
    (hReply : 7 + replyBody.length < 2 ^ 32)
    (hDeliver :
      deliver c.peer (frameBytes msgType c.nextTag body) =
        (peer,
          frameBytes replyType c.nextTag replyBody ++
            rest))
    (expected : UInt8)
    (d : Decoder IoError α) :
    call deliver msgType body expected d c =
      if replyType = expected then
        match d.run replyBody with
        | .ok (a, _) => .ok a ⟨c.nextTag + 1, rest, peer⟩
        | .error err =>
            .error (.io err) ⟨c.nextTag + 1, rest, peer⟩
      else
        .error (.io (unexpectedType replyType expected))
          ⟨c.nextTag + 1, rest, peer⟩ := by
  have hWait :=
    run_sendAndWait_of_reply hIncoming hBody hReply hDeliver
  simp only [call, ClientM.run_bind, hWait, ensureMsgType,
    decodeBody]
  by_cases hType : replyType = expected
  · rw [if_neg (not_not.mpr hType), if_pos hType]
    cases d.run replyBody with
    | error err =>
        rfl
    | ok r =>
        rfl
  · rw [if_pos hType, if_neg hType]
    rfl

end Planten
