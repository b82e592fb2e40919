import Planten.RamFs.Replies
import Planten.Services.Fids

/-
  Which sessions keep to the negotiated message size.

  A request loop announces the size a client asks for, cut
  to 8192, and the RAMFS announces 131072 whatever is asked.
  No server looks at that number again.  So a session keeps
  to it exactly when the announced number is not above the
  one asked for and no later request calls for a longer
  reply.

  Key definitions include:
    * `Service.Honours`
    * `Service.Keeps`
    * `Request.Overfills`
    * `Loop.Overfills`

  Key theorems include:
    * `Effect.long_iff`
    * `Loop.Effect.long_iff`
    * `Service.honours_iff`
    * `FileServer.honours_iff_keeps`
-/

------------------------------------------------------------
-- Sessions
------------------------------------------------------------

namespace Planten

/- The size a version request asks for. -/
def askedSize?
    (msgType : UInt8)
    (body : Bytes) : Option UInt32 :=
  if msgType = TVERSION then
    leadingU32? body
  else
    none

/- The size a version reply announces. -/
def announcedSize? (frame : Bytes) : Option UInt32 :=
  if frame[4]? = some RVERSION then
    leadingU32? (frame.drop 7)
  else
    none

namespace Service

variable (S : Service)

/-
  Every version request is answered with a size that is not
  above the one asked for, and no later frame is longer.
-/
def Honours (turns : List (ServiceTurn S.Env)) : Prop :=
  ∀ pre turn post m frame,
    turns = pre ++ turn :: post →
      askedSize? turn.msgType turn.body = some m →
        S.sent (S.run pre) turn = some frame →
          ∃ n,
            announcedSize? frame = some n ∧
              n ≤ m ∧
              ∀ mid later rest frame',
                post = mid ++ later :: rest →
                  S.sent (S.run (pre ++ turn :: mid))
                      later = some frame' →
                    frame'.length ≤ n.toNat

/-
  The size announced is not above the one asked for, and no
  later request that is answered calls for a longer reply.
-/
def Keeps
    (announces : UInt32 → UInt32)
    (Overfills : Nat → FidTable → ServiceTurn S.Env → Prop)
    (turns : List (ServiceTurn S.Env)) : Prop :=
  ∀ pre turn post m frame,
    turns = pre ++ turn :: post →
      askedSize? turn.msgType turn.body = some m →
        S.sent (S.run pre) turn = some frame →
          announces m ≤ m ∧
            ∀ mid later rest fids frame',
              post = mid ++ later :: rest →
                S.run (pre ++ turn :: mid) = some fids →
                  S.sent (some fids) later = some frame' →
                    ¬ Overfills (announces m).toNat fids
                      later

/-
  What a server announces, and which requests call for
  replies longer than what it announces.
-/
structure SizeLaw
    (announces : UInt32 → UInt32)
    (Overfills : Nat → FidTable → ServiceTurn S.Env → Prop) :
    Prop where
  version :
    ∀ fids (turn : ServiceTurn S.Env) m frame,
      askedSize? turn.msgType turn.body = some m →
        S.sent (some fids) turn = some frame →
          announcedSize? frame = some (announces m)
  long_iff :
    ∀ m fids (turn : ServiceTurn S.Env) frame,
      S.sent (some fids) turn = some frame →
        ((announces m).toNat < frame.length ↔
          Overfills (announces m).toNat fids turn)

variable {S}

theorem exists_of_sent
    {conn : Option FidTable}
    {turn : ServiceTurn S.Env}
    {frame : Bytes}
    (hSent : S.sent conn turn = some frame) :
    ∃ fids, conn = some fids := by
  rcases answer_of_sent hSent with ⟨fids, _, hConn, _⟩
  exact ⟨fids, hConn⟩

/- A session honours the sizes exactly when it keeps them. -/
theorem honours_iff
    {announces : UInt32 → UInt32}
    {Overfills : Nat → FidTable → ServiceTurn S.Env → Prop}
    (hLaw : S.SizeLaw announces Overfills)
    (turns : List (ServiceTurn S.Env)) :
    S.Honours turns ↔ S.Keeps announces Overfills turns := by
  constructor
  · intro hHonours pre turn post m frame hTurns hAsked hSent
    rcases hHonours pre turn post m frame hTurns hAsked hSent
      with ⟨n, hAnnounced, hUpTo, hLater⟩
    rcases exists_of_sent hSent with ⟨before, hBefore⟩
    rw [hBefore] at hSent
    have hVersion :=
      hLaw.version before turn m frame hAsked hSent
    cases hAnnounced.symm.trans hVersion
    refine ⟨hUpTo, ?_⟩
    intro mid later rest fids frame' hPost hRun hSent' hOver
    have hLong :=
      (hLaw.long_iff m fids later frame' hSent').mpr hOver
    have hShort :=
      hLater mid later rest frame' hPost (by rwa [hRun])
    exact absurd hLong (not_lt.mpr hShort)
  · intro hKeeps pre turn post m frame hTurns hAsked hSent
    rcases hKeeps pre turn post m frame hTurns hAsked hSent
      with ⟨hUpTo, hLater⟩
    rcases exists_of_sent hSent with ⟨before, hBefore⟩
    rw [hBefore] at hSent
    refine ⟨announces m,
      hLaw.version before turn m frame hAsked hSent, hUpTo,
      ?_⟩
    intro mid later rest frame' hPost hSent'
    rcases exists_of_sent hSent' with ⟨fids, hRun⟩
    rw [hRun] at hSent'
    by_contra hLong
    exact hLater mid later rest fids frame' hPost hRun hSent'
      ((hLaw.long_iff m fids later frame' hSent').mp
        (not_le.mp hLong))

end Service

end Planten

------------------------------------------------------------
-- Frames
------------------------------------------------------------

namespace Planten

/- A frame is seven bytes and the body. -/
theorem split_of_buildFrame
    {msgType : UInt8}
    {tag : UInt16}
    {body frame : Bytes}
    (hFrame : buildFrame msgType tag body = .ok frame) :
    frame.length = 7 + body.length ∧
      frame.drop 7 = body := by
  rw [buildFrame, bind_eq_ok_iff] at hFrame
  rcases hFrame with ⟨size, _, hFrame⟩
  cases hFrame
  constructor
  · simp only [List.length_append, List.length_cons,
      length_u32le, length_u16le]
    omega
  · have hHead :
        (u32le size ++ msgType :: u16le tag).length = 7 := by
      simp
    have hSplit :
        u32le size ++ msgType :: (u16le tag ++ body) =
          (u32le size ++ msgType :: u16le tag) ++ body := by
      simp
    rw [hSplit, ← hHead]
    exact List.drop_left

/- The size of a version reply can be read off its frame. -/
theorem announcedSize_of_frame
    {n : UInt32}
    {version : String}
    {tag : UInt16}
    {frame : Bytes}
    (hFrame :
      (Reply.rversion n version).frame tag = .ok frame) :
    announcedSize? frame = some n := by
  have hType : frame[4]? = some RVERSION :=
    Server.type_of_buildFrame hFrame
  rw [announcedSize?, if_pos hType,
    (split_of_buildFrame hFrame).2]
  exact leadingU32_of_run
    (decodes_word32 n (encodeString version))

end Planten

------------------------------------------------------------
-- The RAMFS
------------------------------------------------------------

namespace Planten

/-
  A request that calls for a reply longer than the RAMFS
  announces.
-/
inductive Request.Overfills
    (hasher : Hasher)
    (fs : RamFs)
    (fids : FidTable) : Request → Prop where
| walk
    {fid newfid : UInt32} {nwname : UInt16}
    {names : Bytes}
    (hFound :
      stopName fs nwname.toNat names
        (walkBaseState hasher fs fids fid).path = none)
    (hLong : 131072 < 9 + 13 * nwname.toNat) :
    Overfills hasher fs fids (.twalk fid newfid nwname names)
| read
    {fid : UInt32} {offset : UInt64} {count : UInt32}
    {state : FidState} {mode : UInt8} {data : Bytes}
    (hFid : fids.lookup fid = some state)
    (hMode : state.openMode = some mode)
    (hAllowed : modeAllowsRead mode = true)
    (hData : readData hasher fs state.path = .ok data)
    (hLong :
      131072 <
        11 + min count.toNat
          (data.length - offset.toNat)) :
    Overfills hasher fs fids (.tread fid offset count)
| stat
    {fid : UInt32} {state : FidState} {attrs : Attrs}
    (hFid : fids.lookup fid = some state)
    (hNode : fs.view (components state.path) = some attrs)
    (hLong :
      131072 < 56 + attrs.name.utf8ByteSize +
        attrs.uid.utf8ByteSize + attrs.gid.utf8ByteSize +
        attrs.uid.utf8ByteSize) :
    Overfills hasher fs fids (.tstat fid)

variable {hasher : Hasher} {clock : Clock}
variable {fs fs' : RamFs} {fids fids' : FidTable}
variable {req : Request} {reply : Reply}

/- The text of a refusal is far below the size announced. -/
theorem Refusal.short
    {message : String}
    (hRefusal : Refusal hasher fs fids req message) :
    message.utf8ByteSize ≤ 65570 := by
  cases hRefusal with
  | walkName hNames =>
      exact short_walkNames hNames
  | walkTarget hNames hTarget =>
      exact (short_walkTarget hTarget).trans (by decide)
  | readData hFid hMode hAllowed hData =>
      exact (short_readData hData).trans (by decide)
  | wstatFormat hFid hRecord =>
      exact (short_wstatFormat hRecord).trans (by decide)
  | unsupported | unknownFid hSource hNone
  | createPath hFid hStep | createExists hFid hStep hExists
  | statMissing hFid hNone | openMissing hFid hNone
  | readNotOpen hFid hMode | readMode hFid hMode hDenied
  | writeNotOpen hFid hMode | writeMode hFid hMode hDenied
  | wstatFailed hFid hRecord hOp =>
      decide

/- A walk that ends nowhere has no names. -/
theorem names_of_walkTarget
    {n : Nat}
    {names : Bytes}
    {base path message : String}
    {qids : List Qid}
    (hNames :
      walkNames hasher fs n names base [] =
        .ok (.ok (path, qids)))
    (hTarget :
      walkTarget hasher fs path qids = .error message) :
    n = 0 := by
  have hCount := length_walkNames hNames
  unfold walkTarget at hTarget
  split at hTarget
  · cases hTarget
  · rename_i hNone
    rw [List.getLast?_eq_none_iff] at hNone
    rw [hNone] at hCount
    simpa using hCount.symm

/- A request that is refused calls for no long reply. -/
theorem Refusal.not_overfills
    {message : String}
    (hRefusal : Refusal hasher fs fids req message) :
    ¬ req.Overfills hasher fs fids := by
  intro hOver
  cases hOver with
  | walk hFound hLong =>
      cases hRefusal with
      | unknownFid hSource hNone =>
          cases hSource
      | walkName hNames =>
          rcases stopName_of_error hNames with
            ⟨name, hStops, _⟩
          cases hFound.symm.trans hStops
      | walkTarget hNames hTarget =>
          rw [names_of_walkTarget hNames hTarget] at hLong
          exact absurd hLong (by decide)
  | read hFid hMode hAllowed hData hLong =>
      exact not_refused_read hFid hMode hAllowed hData _ _ _
        hRefusal
  | stat hFid hNode hLong =>
      cases hRefusal with
      | unknownFid hSource hNone =>
          cases hSource
          cases hFid.symm.trans hNone
      | statMissing hFid' hNone =>
          cases hFid.symm.trans hFid'
          rw [(fs.stat_eq_none_iff _).mp hNone] at hNode
          cases hNode

/-
  The reply to a request is longer than the size announced
  exactly when the request calls for that.
-/
theorem Effect.long_iff
    (hEffect :
      Effect hasher clock fs fids req fs' fids' reply) :
    131072 < 7 + reply.body.length ↔
      req.Overfills hasher fs fids := by
  have hFixed
      (hSmall : reply.body.length ≤ 131065)
      (hNot : ¬ req.Overfills hasher fs fids) :
      131072 < 7 + reply.body.length ↔
        req.Overfills hasher fs fids :=
    iff_of_false (by omega) hNot
  cases hEffect with
  | version =>
      exact hFixed (by simp [Reply.body]; decide)
        (by rintro ⟨⟩)
  | auth | flush | attach | opened hFid hStat
  | create hFid hStep hFresh hOp hStat
  | write hFid hMode hAllowed hOp | clunk | remove hFid hOp
  | wstat hFid hRecord hOp | clone hFid =>
      exact hFixed (by simp [Reply.body]) (by rintro ⟨⟩)
  | removeFailed hFid hOp =>
      exact hFixed (by simp [Reply.body]; decide)
        (by rintro ⟨⟩)
  | walk hNames hTarget =>
      have hCount := length_walkNames hNames
      rw [List.length_nil, Nat.zero_add] at hCount
      simp only [Reply.body, List.length_append,
        length_u16le, length_flatMap_encodeQidBytes, hCount]
      constructor
      · intro hLong
        exact .walk (stopName_of_ok hNames) (by omega)
      · intro hOver
        cases hOver with
        | walk hFound hLong =>
            omega
  | read hFid hMode hAllowed hData hWindow =>
      rw [readWindow_eq] at hWindow
      split at hWindow
      · cases hWindow
      · cases hWindow
        simp only [Reply.body, List.length_append,
          length_u32le, List.length_take, List.length_drop]
        constructor
        · intro hLong
          exact .read hFid hMode hAllowed hData (by omega)
        · intro hOver
          cases hOver with
          | read hFid' hMode' hAllowed' hData' hLong =>
              cases hFid.symm.trans hFid'
              cases hData.symm.trans hData'
              omega
  | stat hFid hStat =>
      have hNode := RamFs.view_of_stat hStat
      simp only [Reply.body, length_encodeStatPayload,
        length_statRecord, inodeToStat]
      constructor
      · intro hLong
        exact .stat hFid hNode (by omega)
      · intro hOver
        cases hOver with
        | stat hFid' hNode' hLong =>
            cases hFid.symm.trans hFid'
            cases hNode.symm.trans hNode'
            omega
  | refused hRefusal =>
      have hShort := hRefusal.short
      apply hFixed
      · simp only [Reply.body, length_encodeString]
        omega
      · exact hRefusal.not_overfills

end Planten

------------------------------------------------------------
-- The Request Loops
------------------------------------------------------------

namespace Planten

namespace Loop

variable {H : Type}

/- A request that calls for a reply longer than `n` bytes. -/
inductive Overfills
    (loop : Loop H)
    (access : Access H)
    (fids : FidTable)
    (n : Nat) : PseudoRequest → Prop where
| version
    {msize : UInt32} {version : String}
    (hLong :
      n < if version = VERSION_STRING then 19 else 20) :
    Overfills loop access fids n (.tversion msize version)
| attach
    {fid afid : UInt32} {uname aname : String}
    (hLong : n < 20) :
    Overfills loop access fids n
      (.tattach fid afid uname aname)
| walk
    {fid newfid : UInt32} {names : List String}
    (hFinds :
      ∀ i < names.length,
        FindsStep loop.fs access.hosts names
          (loop.basePath fids fid) i)
    (hLong : n < 9 + 13 * names.length) :
    Overfills loop access fids n (.twalk fid newfid names)
| opened
    {fid : UInt32} {mode : Option UInt8} {state : FidState}
    (hFid : fids.lookup fid = some state)
    (hFinds :
      loop.opensFiles = true →
        loop.fs.Finds (access.hosts 0) state.path)
    (hLong : n < 24) :
    Overfills loop access fids n (.topen fid mode)
| read
    {fid : UInt32} {offset : UInt64} {count : UInt32}
    {state : FidState} {data : Bytes}
    (hFid : fids.lookup fid = some state)
    (hData :
      loop.fs.read (access.hosts 0) state.path = some data)
    (hLong :
      n < 11 + min count.toNat
        (data.length - offset.toNat)) :
    Overfills loop access fids n (.tread fid offset count)
| stat
    {fid : UInt32} {state : FidState} {inode : Attrs}
    (hFid : fids.lookup fid = some state)
    (hStat :
      loop.fs.stat (access.hosts 0) state.path =
        .ok (some inode))
    (hLong :
      n < 9 + (statRecord (loop.record state inode)).length) :
    Overfills loop access fids n (.tstat fid)
| clunk
    {fid : UInt32}
    (hLong : n < 7) :
    Overfills loop access fids n (.tclunk fid)
| refused
    {req : PseudoRequest} {message : String}
    (hRefusal : loop.Refusal access fids req message)
    (hLong : n < 9 + message.utf8ByteSize) :
    Overfills loop access fids n req

variable {loop : Loop H} {access : Access H}
variable {fids fids' : FidTable} {req : PseudoRequest}
variable {reply : Reply} {message : String}

/- A request that is refused is answered with its refusal. -/
theorem Effect.reply_of_refusal
    (hEffect : loop.Effect access fids req fids' reply)
    (hRefusal : loop.Refusal access fids req message) :
    reply = .rerror message := by
  cases hRefusal with
  | unsupported =>
      cases hEffect with
      | refused hOther =>
          cases hOther
          rfl
  | walkMissing hBound hSteps hMissing =>
      cases hEffect with
      | walk hCount hAll hWalk =>
          exact absurd (hAll _ hBound).1 hMissing
      | refused hOther =>
          cases hOther
          rfl
  | openUnknown hNone =>
      cases hEffect with
      | opened hOpens hFid hFinds | openIgnored hOpens hFid =>
          cases hFid.symm.trans hNone
      | refused hOther =>
          cases hOther with
          | openUnknown hNone' =>
              rfl
          | openMissing hOpens hFid hMissing =>
              cases hFid.symm.trans hNone
  | openMissing hOpens hFid hMissing =>
      cases hEffect with
      | opened hOpens' hFid' hFinds =>
          cases hFid.symm.trans hFid'
          exact absurd hFinds hMissing
      | openIgnored hOpens' hFid' =>
          cases hOpens.symm.trans hOpens'
      | refused hOther =>
          cases hOther with
          | openUnknown hNone =>
              cases hFid.symm.trans hNone
          | openMissing hOpens' hFid' hMissing' =>
              rfl
  | readUnknown hNone =>
      cases hEffect with
      | read hFid hData =>
          cases hFid.symm.trans hNone
      | refused hOther =>
          cases hOther with
          | readUnknown hNone' =>
              rfl
          | readMissing hFid hData =>
              cases hFid.symm.trans hNone
  | readMissing hFid hNoData =>
      cases hEffect with
      | read hFid' hData =>
          cases hFid.symm.trans hFid'
          cases hNoData.symm.trans hData
      | refused hOther =>
          cases hOther with
          | readUnknown hNone =>
              cases hFid.symm.trans hNone
          | readMissing hFid' hNoData' =>
              rfl
  | statUnknown hNone =>
      cases hEffect with
      | stat hFid hStat =>
          cases hFid.symm.trans hNone
      | refused hOther =>
          cases hOther with
          | statUnknown hNone' =>
              rfl
          | statMissing hFid hMissing =>
              cases hFid.symm.trans hNone
  | statMissing hFid hMissing =>
      cases hEffect with
      | stat hFid' hStat =>
          cases hFid.symm.trans hFid'
          exact absurd (loop.statLaw.finds_of_some hStat).1
            hMissing
      | refused hOther =>
          cases hOther with
          | statUnknown hNone =>
              cases hFid.symm.trans hNone
          | statMissing hFid' hMissing' =>
              rfl

/- A long reply is one its request calls for. -/
theorem Effect.overfills_of_long
    {n : Nat}
    (hEffect : loop.Effect access fids req fids' reply)
    (hLong : n < 7 + reply.body.length) :
    loop.Overfills access fids n req := by
  cases hEffect with
  | version =>
      rw [length_body_versionReply] at hLong
      apply Overfills.version
      split at hLong
      · rw [if_pos ‹_›]
        omega
      · rw [if_neg ‹_›]
        omega
  | attach =>
      simp only [Reply.body, length_encodeQidBytes] at hLong
      exact .attach (by omega)
  | walk hCount hSteps hWalk =>
      simp only [Reply.body, List.length_append,
        length_u16le, length_flatMap_encodeQidBytes, hCount]
        at hLong
      exact .walk (fun i hBound => (hSteps i hBound).1)
        (by omega)
  | opened hOpens hFid hFinds =>
      simp only [Reply.body, List.length_append,
        length_encodeQidBytes, length_u32le] at hLong
      exact .opened hFid (fun _ => hFinds) (by omega)
  | openIgnored hOpens hFid =>
      simp only [Reply.body, List.length_append,
        length_encodeQidBytes, length_u32le] at hLong
      refine .opened hFid (fun hOther => ?_) (by omega)
      cases hOpens.symm.trans hOther
  | read hFid hData =>
      simp only [Reply.body, List.length_append,
        length_u32le, List.length_take, List.length_drop]
        at hLong
      exact .read hFid hData (by omega)
  | stat hFid hStat =>
      simp only [Reply.body, length_encodeStatPayload]
        at hLong
      exact .stat hFid hStat (by omega)
  | clunk =>
      exact .clunk (by simpa [Reply.body] using hLong)
  | refused hRefusal =>
      simp only [Reply.body, length_encodeString] at hLong
      exact .refused hRefusal (by omega)

/- A request that calls for a long reply gets one. -/
theorem Effect.long_of_overfills
    {n : Nat}
    (hEffect : loop.Effect access fids req fids' reply)
    (hOver : loop.Overfills access fids n req) :
    n < 7 + reply.body.length := by
  cases hOver with
  | refused hRefusal hLong =>
      rw [hEffect.reply_of_refusal hRefusal]
      simp only [Reply.body, length_encodeString]
      omega
  | version hLong =>
      cases hEffect with
      | version =>
          rw [length_body_versionReply]
          split at hLong
          · rw [if_pos ‹_›]
            omega
          · rw [if_neg ‹_›]
            omega
      | refused hRefusal =>
          cases hRefusal
  | attach hLong =>
      cases hEffect with
      | attach =>
          simp only [Reply.body, length_encodeQidBytes]
          omega
      | refused hRefusal =>
          cases hRefusal
  | walk hFinds hLong =>
      cases hEffect with
      | walk hCount hSteps hWalk =>
          simp only [Reply.body, List.length_append,
            length_u16le, length_flatMap_encodeQidBytes,
            hCount]
          omega
      | refused hRefusal =>
          cases hRefusal with
          | walkMissing hBound hSteps hMissing =>
              exact absurd (hFinds _ hBound) hMissing
  | opened hFid hFinds hLong =>
      cases hEffect with
      | opened hOpens hFid' hFound
      | openIgnored hOpens hFid' =>
          simp only [Reply.body, List.length_append,
            length_encodeQidBytes, length_u32le]
          omega
      | refused hRefusal =>
          cases hRefusal with
          | openUnknown hNone =>
              cases hFid.symm.trans hNone
          | openMissing hOpens hFid' hMissing =>
              cases hFid.symm.trans hFid'
              exact absurd (hFinds hOpens) hMissing
  | read hFid hData hLong =>
      cases hEffect with
      | read hFid' hData' =>
          cases hFid.symm.trans hFid'
          cases hData.symm.trans hData'
          simp only [Reply.body, List.length_append,
            length_u32le, List.length_take,
            List.length_drop]
          omega
      | refused hRefusal =>
          cases hRefusal with
          | readUnknown hNone =>
              cases hFid.symm.trans hNone
          | readMissing hFid' hNoData =>
              cases hFid.symm.trans hFid'
              cases hData.symm.trans hNoData
  | stat hFid hStat hLong =>
      cases hEffect with
      | stat hFid' hStat' =>
          cases hFid.symm.trans hFid'
          cases hStat.symm.trans hStat'
          simp only [Reply.body, length_encodeStatPayload]
          omega
      | refused hRefusal =>
          cases hRefusal with
          | statUnknown hNone =>
              cases hFid.symm.trans hNone
          | statMissing hFid' hMissing =>
              cases hFid.symm.trans hFid'
              exact absurd
                (loop.statLaw.finds_of_some hStat).1 hMissing
  | clunk hLong =>
      cases hEffect with
      | clunk =>
          simpa [Reply.body] using hLong
      | refused hRefusal =>
          cases hRefusal

/-
  The reply to a request is longer than `n` bytes exactly
  when the request calls for that.
-/
theorem Effect.long_iff
    {n : Nat}
    (hEffect : loop.Effect access fids req fids' reply) :
    n < 7 + reply.body.length ↔
      loop.Overfills access fids n req :=
  ⟨hEffect.overfills_of_long, hEffect.long_of_overfills⟩

end Loop

end Planten

------------------------------------------------------------
-- The Five Servers
------------------------------------------------------------

namespace Planten

open Decoder (yields_pure yields_trivial)

theorem asked_msgType
    {msgType : UInt8}
    {body : Bytes}
    {m : UInt32}
    (hAsked : askedSize? msgType body = some m) :
    msgType = TVERSION ∧ leadingU32? body = some m := by
  unfold askedSize? at hAsked
  split at hAsked
  · rename_i hType
    exact ⟨hType, hAsked⟩
  · cases hAsked

/- A turn of the RAMFS that calls for a long reply. -/
def RamCalls
    (hasher : Hasher)
    (_n : Nat)
    (fids : FidTable)
    (turn : ServiceTurn RamAccess) : Prop :=
  ∃ req,
    Request.decode turn.msgType turn.body = .ok req ∧
      req.Overfills hasher turn.env.ramfs fids

/- A turn of a loop that calls for a reply over `n` bytes. -/
def Loop.Calls
    {H : Type}
    (loop : Loop H)
    (n : Nat)
    (fids : FidTable)
    (turn : ServiceTurn (Access H)) : Prop :=
  ∃ req,
    PseudoRequest.decode turn.msgType turn.body = .ok req ∧
      loop.Overfills turn.env fids n req

theorem ramService_sizeLaw (hasher : Hasher) :
    (ramService hasher).SizeLaw (fun _ => 131072)
      (RamCalls hasher) := by
  constructor
  · intro fids turn m frame hAsked hSent
    rcases turn with ⟨access, msgType, tag, body⟩
    rcases asked_msgType hAsked with ⟨rfl, _⟩
    rcases Service.answer_of_sent hSent with
      ⟨_, fids', hConn, hAnswer⟩
    cases hConn
    rcases effect_of_ramServe
      (Service.answer_eq_some hAnswer) with
      ⟨req, fs', reply, hDecode, hEffect, hFrame⟩
    rcases ok_of_map hDecode with ⟨r, hRun, rfl⟩
    cases hEffect with
    | version =>
        exact announcedSize_of_frame hFrame
    | refused hRefusal =>
        cases hRefusal with
        | unknownFid hSource hNone =>
            cases hSource
  · intro m fids turn frame hSent
    rcases Service.answer_of_sent hSent with
      ⟨_, fids', hConn, hAnswer⟩
    cases hConn
    rcases effect_of_ramServe
      (Service.answer_eq_some hAnswer) with
      ⟨req, fs', reply, hDecode, hEffect, hFrame⟩
    rw [(split_of_buildFrame hFrame).1]
    change 131072 < 7 + reply.body.length ↔ _
    rw [hEffect.long_iff]
    constructor
    · intro hOver
      exact ⟨req, hDecode, hOver⟩
    · rintro ⟨req', hDecode', hOver⟩
      cases hDecode.symm.trans hDecode'
      exact hOver

/- A loop announces the size asked for, or its own bound. -/
theorem Loop.sizeLaw_of_serve
    {H : Type}
    (loop : Loop H)
    {serve :
      Access H → FidTable → UInt8 → UInt16 → Bytes →
        Except Fault (FidTable × Bytes)}
    (hServe :
      ∀ access fids,
        serve access fids =
          Planten.serve (loop.handle access fids)) :
    Service.SizeLaw ⟨Access H, Access.poisoned, serve⟩
      (fun m => min m MAX_MSG_SIZE) loop.Calls := by
  cases funext fun access => funext (hServe access)
  constructor
  · intro fids turn m frame hAsked hSent
    rcases turn with ⟨access, msgType, tag, body⟩
    rcases asked_msgType hAsked with ⟨rfl, hLeading⟩
    rcases Service.answer_of_sent hSent with
      ⟨_, fids', hConn, hAnswer⟩
    cases hConn
    rcases Loop.effect_of_serve
      (Service.answer_eq_some hAnswer) with
      ⟨req, reply, hDecode, hEffect, hFrame⟩
    rcases ok_of_map hDecode with ⟨⟨r, rest⟩, hRun, rfl⟩
    have hLeads :
        Leads PseudoRequest.versionFields Prod.fst :=
      leads_bind (fun _ =>
        (yields_trivial _).bind (fun _ _ =>
          yields_pure rfl))
    cases hLeading.symm.trans (hLeads body r rest hRun)
    cases hEffect with
    | version =>
        exact announcedSize_of_frame hFrame
    | refused hRefusal =>
        cases hRefusal
  · intro m fids turn frame hSent
    rcases Service.answer_of_sent hSent with
      ⟨_, fids', hConn, hAnswer⟩
    cases hConn
    rcases Loop.effect_of_serve
      (Service.answer_eq_some hAnswer) with
      ⟨req, reply, hDecode, hEffect, hFrame⟩
    rw [(split_of_buildFrame hFrame).1, hEffect.long_iff]
    constructor
    · intro hOver
      exact ⟨req, hDecode, hOver⟩
    · rintro ⟨req', hDecode', hOver⟩
      cases hDecode.symm.trans hDecode'
      exact hOver

namespace FileServer

variable {Pid : Type} [DecidableEq Pid]

/- The size a server announces. -/
def announces : FileServer → UInt32 → UInt32
| ramfs => fun _ => 131072
| _ => fun m => min m MAX_MSG_SIZE

/- A turn that calls for a reply over the size announced. -/
def Calls
    (hasher : Hasher)
    (pids : PidText Pid) :
    (server : FileServer) →
      Nat → FidTable →
        ServiceTurn (server.service hasher pids).Env → Prop
| ramfs => RamCalls hasher
| procfs => (ProcFs.loop pids).Calls
| srvfs => SrvFs.loop.Calls
| devfs => DevFs.loop.Calls
| netfs => NetFs.loop.Calls

/-
  For every server and every session, every size announced
  is one the client asked for and every later frame is within
  it, exactly when the size announced is not above the one
  asked for and no later request that is answered calls for a
  longer reply.
-/
theorem honours_iff_keeps
    (hasher : Hasher)
    (pids : PidText Pid)
    (server : FileServer)
    (turns :
      List (ServiceTurn (server.service hasher pids).Env)) :
    (server.service hasher pids).Honours turns ↔
      (server.service hasher pids).Keeps server.announces
        (server.Calls hasher pids) turns := by
  cases server with
  | ramfs =>
      exact Service.honours_iff (ramService_sizeLaw hasher)
        turns
  | procfs =>
      exact Service.honours_iff
        ((ProcFs.loop pids).sizeLaw_of_serve
          (ProcFs.handleClient_eq pids)) turns
  | srvfs =>
      exact Service.honours_iff
        (SrvFs.loop.sizeLaw_of_serve SrvFs.handleClient_eq)
        turns
  | devfs =>
      exact Service.honours_iff
        (DevFs.loop.sizeLaw_of_serve DevFs.handleClient_eq)
        turns
  | netfs =>
      exact Service.honours_iff
        (NetFs.loop.sizeLaw_of_serve NetFs.handleClient_eq)
        turns

/- A client of the RAMFS that asks for 4096 bytes. -/
def smallClient :
    List (ServiceTurn (ramService (fun _ _ => 0)).Env) :=
  [⟨⟨RamFs.fresh 0, false, fun _ => 0⟩, TVERSION, 0,
    encodeVersionBody 4096 "9P2000"⟩]

/- A client of the devices that asks for 10, and attaches. -/
def tinyClient : List (ServiceTurn (Access (Nat → UInt8))) :=
  [⟨idleAccess (fun _ => 0), TVERSION, 0,
      encodeVersionBody 10 "9P2000"⟩,
    ⟨idleAccess (fun _ => 0), TATTACH, 0,
      encodeAttachBody 0 none "user" ""⟩]

/-
  The RAMFS announces more than it was asked for, and the
  device file system sends more than it announced.
-/
theorem not_honours_of_smallClient :
    ¬ (ramfs.service (fun _ _ => 0)
          (⟨id, Nat.repr⟩ : PidText Nat)).Honours
        smallClient ∧
      ¬ (devfs.service (fun _ _ => 0)
          (⟨id, Nat.repr⟩ : PidText Nat)).Honours
        tinyClient := by
  constructor
  · intro hHonours
    have hSent :
        (ramService (fun _ _ => 0)).sent (some [])
            ⟨⟨RamFs.fresh 0, false, fun _ => 0⟩, TVERSION, 0,
              encodeVersionBody 4096 "9P2000"⟩ =
          some (frameBytes RVERSION 0
            (encodeVersionBody 131072 "9P2000")) := by
      decide +kernel
    rcases hHonours [] _ [] 4096 _ rfl (by decide) hSent with
      ⟨n, hAnnounced, hUpTo, _⟩
    have hSize :
        announcedSize? (frameBytes RVERSION 0
          (encodeVersionBody 131072 "9P2000")) =
            some 131072 := by
      decide +kernel
    cases hAnnounced.symm.trans hSize
    exact absurd hUpTo (by decide)
  · intro hHonours
    have hSent :
        (devfs.service (fun _ _ => 0)
            (⟨id, Nat.repr⟩ : PidText Nat)).sent (some [])
            ⟨idleAccess (fun _ => 0), TVERSION, 0,
              encodeVersionBody 10 "9P2000"⟩ =
          some (frameBytes RVERSION 0
            (encodeVersionBody 10 "9P2000")) := by
      decide +kernel
    have hLater :
        (devfs.service (fun _ _ => 0)
            (⟨id, Nat.repr⟩ : PidText Nat)).sent
            ((devfs.service (fun _ _ => 0)
              (⟨id, Nat.repr⟩ : PidText Nat)).run
                [⟨idleAccess (fun _ => 0), TVERSION, 0,
                  encodeVersionBody 10 "9P2000"⟩])
            ⟨idleAccess (fun _ => 0), TATTACH, 0,
              encodeAttachBody 0 none "user" ""⟩ =
          some (frameBytes RATTACH 0
            (encodeQidBytes ⟨0x80, 0, 0⟩)) := by
      decide +kernel
    rcases hHonours [] _ _ 10 _ rfl (by decide) hSent with
      ⟨n, hAnnounced, _, hFrames⟩
    have hSize :
        announcedSize? (frameBytes RVERSION 0
          (encodeVersionBody 10 "9P2000")) = some 10 := by
      decide +kernel
    cases hAnnounced.symm.trans hSize
    exact absurd (hFrames [] _ [] _ rfl hLater) (by decide)

end FileServer

end Planten
