import Planten.Namespace.Probes
import Planten.RamFs.EndToEnd
import Planten.RamFs.Walks

/-
  The probe of a RAMFS server.

  A server may walk a part of a path only, and then the probe
  finds what is not there.  The RAMFS server walks the whole
  path or refuses it.  So the probe of a RAMFS server, with
  the client library and the frames between them, succeeds
  just when there is a node at every step of the path, and it
  leaves nothing behind.

  Key definitions include:
    * `Server.withFids`
    * `Link.ready`
    * `Call.Probes`

  Key theorems include:
    * `Link.call_of_probes`
    * `Link.walk_ramfs`
    * `probeShare_ramfs`
    * `probeRemoteShare_ramfs_iff`
-/

------------------------------------------------------------
-- Served Calls
------------------------------------------------------------

namespace Planten

/- The server with another fid table of a connection. -/
def Server.withFids
    (srv : Server)
    (conn : Nat)
    (fids : FidTable) : Server :=
  { srv with conns := Function.update srv.conns conn (some fids) }

/- A client between two calls, with nothing on the way. -/
def Link.ready
    (tag : UInt16)
    (srv : Server) : Link :=
  ⟨tag, [], ⟨srv, []⟩⟩

namespace Server

variable (srv : Server) (conn : Nat) (fids fids' : FidTable)

theorem conns_withFids :
    (srv.withFids conn fids).conns conn = some fids :=
  Function.update_self ..

theorem withFids_withFids :
    (srv.withFids conn fids).withFids conn fids' =
      srv.withFids conn fids' := by
  unfold withFids
  rw [Function.update_idem]

end Server

/- The calls that the probe makes. -/
def Call.Probes : Call → Prop
| .version _ _ | .attach _ _ _ _ | .walk _ _ _
| .clunk _ => True
| _ => False

namespace Link

variable (hasher : Hasher) (clock : Clock)
variable {srv : Server} (conn : Nat)
variable {fids : FidTable}

/- Only a poisoned lock is in the way of the probe. -/
theorem safe_of_probes
    {tag : UInt16}
    {c : Call}
    {req : Request}
    (hProbes : c.Probes)
    (hCarries : req.Carries c)
    (hLock : srv.poisoned = false)
    (cause : Panic)
    (poisons : Bool) :
    ¬ Hazard hasher clock tag
      ((srv.withFids conn fids).session fids) req cause
      poisons := by
  intro hHazard
  cases hHazard with
  | poisonedLock hPoisoned =>
      cases hPoisoned.symm.trans hLock
  | _ =>
      cases hCarries
      all_goals exact hProbes

/- The probe leaves the files alone, and its replies fit. -/
theorem small_of_probes
    {c : Call}
    {req : Request}
    {fs fs' : RamFs}
    {fids' : FidTable}
    {reply : Reply}
    (hProbes : c.Probes)
    (hCarries : req.Carries c)
    (hEffect :
      Effect hasher clock fs fids req fs' fids' reply) :
    fs' = fs ∧ reply.Small := by
  cases hEffect with
  | version =>
      exact ⟨rfl, small_rversion⟩
  | attach =>
      exact ⟨rfl, small_of_fixed (by
        simp [Reply.body])⟩
  | clunk =>
      exact ⟨rfl, small_of_fixed (by decide)⟩
  | walk hNames hTarget =>
      rename_i source newfid nwname names path qids newQid
      have hCount := nwname.toNat_lt
      have hLength := length_walkNames hNames
      rw [List.length_nil] at hLength
      exact ⟨rfl, small_rwalk (by omega)⟩
  | refused hRefusal =>
      refine ⟨rfl, small_rerror ?_⟩
      cases hRefusal with
      | walkName hNames =>
          exact (short_walkNames hNames).trans_lt (by decide)
      | walkTarget hNames hTarget =>
          exact (short_walkTarget hTarget).trans_lt
            (by decide)
      | _ =>
          cases hCarries
          all_goals first | exact hProbes.elim | decide
  | _ =>
      cases hCarries
      all_goals exact hProbes.elim

/-
  A call of the probe is answered after its effect, and ends
  as the reply says.
-/
theorem call_of_probes
    {c : Call}
    (hProbes : c.Probes)
    (hFits : c.Fits)
    (hLock : srv.poisoned = false)
    (tag : UInt16) :
    ∃ req fids' reply,
      req.Carries c ∧
        Effect hasher clock srv.ramfs fids req srv.ramfs
          fids' reply ∧
        ∀ {α : Type} (d : Decoder IoError α),
          call (Peer.deliver hasher conn clock) c.msgType
              c.body c.expected d
              (ready tag (srv.withFids conn fids)) =
            if reply.msgType = c.expected then
              match d.run reply.body with
              | .ok (a, _) =>
                  .ok a (ready (tag + 1)
                    (srv.withFids conn fids'))
              | .error err =>
                  .error (.io err)
                    (ready (tag + 1)
                      (srv.withFids conn fids'))
            else
              .error
                (.io (unexpectedType reply.msgType
                  c.expected))
                (ready (tag + 1)
                  (srv.withFids conn fids')) := by
  have hConn := srv.conns_withFids conn fids
  rcases c.decode_of_fits hFits with
    ⟨req, hDecode, hCarries⟩
  have hSafe :
      ∀ cause poisons,
        ¬ Hazard hasher clock tag
          ((srv.withFids conn fids).session fids) req cause
          poisons :=
    safe_of_probes hasher clock conn hProbes hCarries hLock
  rcases Server.served_of_safe hConn hDecode hSafe (by
      rintro _ _ _ _ err rfl
      cases hCarries with
      | walk hCount hRead =>
          exact walkNames_ne_error _ _ hRead _ _ _) with
    ⟨fs, fids', reply, hEffect, hStep, hAfter, _⟩
  rcases small_of_probes hasher clock hProbes hCarries
    hEffect with ⟨rfl, hSmall⟩
  refine ⟨req, fids', reply, hCarries, hEffect, ?_⟩
  intro α d
  rcases Server.sent_of_step hStep with
    ⟨frame, hFrame, hSent⟩
  rw [hSmall.frame tag] at hFrame
  cases hFrame
  have hDeliver :
      Peer.deliver hasher conn clock
          (ready tag (srv.withFids conn fids)).peer
          (frameBytes c.msgType tag c.body) =
        (⟨srv.withFids conn fids', []⟩,
          frameBytes reply.msgType tag reply.body ++
            []) := by
    rw [List.append_nil,
      Peer.deliver_of_frame rfl
        (Option.isSome_of_eq_some hConn) c.msgType tag
        hFits.body]
    refine Prod.ext (congrArg (fun srv => Peer.mk srv []) ?_)
      hSent
    exact hAfter.trans (srv.withFids_withFids conn fids fids')
  have hReply : 7 + reply.body.length < 2 ^ 32 := by
    unfold Reply.Small at hSmall
    omega
  exact run_call_of_reply rfl hFits.body hReply hDeliver
    c.expected d

end Link

end Planten

------------------------------------------------------------
-- Names of a Walk
------------------------------------------------------------

namespace Planten

variable {hasher : Hasher} {fs : RamFs} {n : Nat}
variable {cursor rest : Bytes} {names : List String}

/- A walk that ends somewhere has found its whole trail. -/
theorem trail_of_walkNames
    {base path : String}
    {qids : List Qid}
    (hRead :
      (Decoder.many readString n).run cursor =
        .ok (names, rest))
    (hNames : ∀ name ∈ names, name ≠ "")
    (hFound :
      walkNames hasher fs n cursor base [] =
        .ok (.ok (path, qids))) :
    ∀ point ∈ walkTrail (components base) names,
      (fs.view point).isSome := by
  rcases walkNames_spec hasher hRead hNames base [] with
    ⟨found, hNodes, _⟩ | ⟨_, message, hError⟩
  · intro point hPoint
    rw [← components_trailPaths hNames,
      List.mem_map] at hPoint
    rcases hPoint with ⟨path, hPath, rfl⟩
    have hMem :
        nodeQid? hasher fs path ∈ found.map some := by
      rw [← hNodes]
      exact List.mem_map_of_mem hPath
    rcases List.mem_map.mp hMem with ⟨qid, _, hQid⟩
    exact isSome_view_of_nodeQid? hQid.symm
  · cases hError.symm.trans hFound

/- A walk that fails has missed a point of its trail. -/
theorem no_trail_of_walkNames
    {base message : String}
    (hRead :
      (Decoder.many readString n).run cursor =
        .ok (names, rest))
    (hNames : ∀ name ∈ names, name ≠ "")
    (hFailed :
      walkNames hasher fs n cursor base [] =
        .ok (.error message)) :
    ¬ ∀ point ∈ walkTrail (components base) names,
      (fs.view point).isSome := by
  rcases walkNames_spec hasher hRead hNames base [] with
    ⟨found, _, hOk⟩ | ⟨⟨path, hPath, hNone⟩, _⟩
  · cases hOk.symm.trans hFailed
  · intro hAll
    have hSome := hAll (components path) (by
      rw [← components_trailPaths hNames]
      exact List.mem_map_of_mem hPath)
    rw [(fs.stat_eq_none_iff path).mp hNone] at hSome
    cases hSome

/- A walk along some name finds the node it ends at. -/
theorem walkTarget_of_walkNames
    {base path message : String}
    {qids : List Qid}
    (hCount : n ≠ 0)
    (hFound :
      walkNames hasher fs n cursor base [] =
        .ok (.ok (path, qids))) :
    walkTarget hasher fs path qids ≠ .error message := by
  have hLength := length_walkNames hFound
  intro hTarget
  unfold walkTarget at hTarget
  split at hTarget
  · cases hTarget
  · rename_i hNone
    rw [List.getLast?_eq_none_iff] at hNone
    rw [hNone] at hLength
    exact hCount (by simpa using hLength.symm)

end Planten

------------------------------------------------------------
-- Calls of the Probe
------------------------------------------------------------

namespace Planten

namespace Link

variable (hasher : Hasher) (clock : Clock)
variable {srv : Server} (conn : Nat)
variable (fids : FidTable)

theorem version_ramfs
    (hLock : srv.poisoned = false)
    (tag : UInt16) :
    P9Client.version (Peer.deliver hasher conn clock) 131072
        "9P2000" (ready tag (srv.withFids conn fids)) =
      .ok "9P2000"
        (ready (tag + 1) (srv.withFids conn fids)) := by
  have hFits : (Call.version 131072 "9P2000").Fits :=
    ⟨by decide, by decide⟩
  have hProbes : (Call.version 131072 "9P2000").Probes :=
    trivial
  rcases call_of_probes hasher clock conn hProbes hFits hLock
      tag with
    ⟨req, fids', reply, hCarries, hEffect, hCall⟩
  cases hCarries
  cases hEffect with
  | version =>
      exact hCall P9Client.decodeVersion
  | refused hRefusal =>
      cases hRefusal with
      | unknownFid hSource =>
          cases hSource

/- An attach binds its fid to the root. -/
theorem attach_ramfs
    {fid : UInt32}
    {uname : String}
    (hFits : (Call.attach fid none uname "").Fits)
    (hLock : srv.poisoned = false)
    (tag : UInt16) :
    P9Client.attach (Peer.deliver hasher conn clock) fid none
        uname "" (ready tag (srv.withFids conn fids)) =
      .ok () (ready (tag + 1)
        (srv.withFids conn
          (KeyMap.insert fid
            (FidState.new "/"
              (qidFromInode hasher "/" srv.ramfs.root))
            fids))) := by
  have hProbes : (Call.attach fid none uname "").Probes :=
    trivial
  rcases call_of_probes hasher clock conn hProbes hFits hLock
      tag with
    ⟨req, fids', reply, hCarries, hEffect, hCall⟩
  cases hCarries
  cases hEffect with
  | attach =>
      exact hCall (pure ())
  | refused hRefusal =>
      cases hRefusal with
      | unknownFid hSource =>
          cases hSource

theorem clunk_ramfs
    (fid : UInt32)
    (hLock : srv.poisoned = false)
    (tag : UInt16) :
    P9Client.clunk (Peer.deliver hasher conn clock) fid
        (ready tag (srv.withFids conn fids)) =
      .ok () (ready (tag + 1)
        (srv.withFids conn (KeyMap.erase fid fids))) := by
  have hFits : (Call.clunk fid).Fits := by
    refine ⟨trivial, ?_⟩
    simp [Call.body, encodeClunkBody]
  have hProbes : (Call.clunk fid).Probes := trivial
  rcases call_of_probes hasher clock conn hProbes hFits hLock
      tag with
    ⟨req, fids', reply, hCarries, hEffect, hCall⟩
  cases hCarries
  cases hEffect with
  | clunk =>
      exact hCall (pure ())
  | refused hRefusal =>
      cases hRefusal with
      | unknownFid hSource =>
          cases hSource

variable {fids}

/-
  A walk from the root succeeds when there is a node at every
  point of its trail, and binds the new fid.
-/
theorem walk_ramfs
    {fid newfid : UInt32}
    {names : List String}
    {qid : Qid}
    (hFid : fids.lookup fid = some (FidState.new "/" qid))
    (hFits : (Call.walk fid newfid names).Fits)
    (hNames : ∀ name ∈ names, name ≠ "")
    (hSome : names ≠ [])
    (hLock : srv.poisoned = false)
    (tag : UInt16) :
    ((∀ point ∈ walkTrail [] names,
        (srv.ramfs.view point).isSome) ∧
      ∃ state,
        P9Client.walk (Peer.deliver hasher conn clock) fid
            newfid names
            (ready tag (srv.withFids conn fids)) =
          .ok names.length (ready (tag + 1)
            (srv.withFids conn
              (KeyMap.insert newfid state fids)))) ∨
      (¬ ∀ point ∈ walkTrail [] names,
        (srv.ramfs.view point).isSome) ∧
        ∃ fault link,
          P9Client.walk (Peer.deliver hasher conn clock) fid
              newfid names
              (ready tag (srv.withFids conn fids)) =
            .error fault link := by
  have hProbes : (Call.walk fid newfid names).Probes :=
    trivial
  rcases call_of_probes hasher clock conn hProbes hFits hLock
      tag with
    ⟨req, fids', reply, hCarries, hEffect, hCall⟩
  have hWalk := hCall P9Client.decodeWalk
  cases hCarries with
  | walk hCount hRead =>
      have hBase :
          (walkBaseState hasher srv.ramfs fids fid).path =
            "/" := by
        rw [walkBaseState, hFid]
        rfl
      cases hEffect with
      | walk hFound hTarget =>
          left
          rename_i nwname bytes path qids newQid
          rw [hBase] at hFound
          have hLength := length_walkNames hFound
          rw [List.length_nil, Nat.zero_add, hCount]
            at hLength
          refine ⟨trail_of_walkNames hRead hNames hFound,
            FidState.new path newQid, ?_⟩
          rw [← hLength]
          refine hWalk.trans ((if_pos rfl).trans ?_)
          have hDecoded :=
            P9Client.decodes_decodeWalk
              (hLength.trans_le hFits.args.1)
          rw [Reply.body, hDecoded.run_nil]
      | refused hRefusal =>
          right
          have hError : RERROR ≠ RWALK := by
            decide
          refine ⟨?_, _, _, hWalk.trans (if_neg hError)⟩
          cases hRefusal with
          | unknownFid hSource =>
              cases hSource
          | walkName hFailed =>
              rw [hBase] at hFailed
              exact no_trail_of_walkNames hRead hNames
                hFailed
          | walkTarget hFound hTarget =>
              rw [hBase] at hFound
              refine absurd hTarget
                (walkTarget_of_walkNames ?_ hFound)
              rw [hCount]
              exact List.length_pos_iff.mpr hSome |>.ne'

end Link

end Planten

------------------------------------------------------------
-- Probes of a RAMFS Server
------------------------------------------------------------

namespace Planten

variable (hasher : Hasher) (clock : Clock)
variable {srv : Server} (conn : Nat)

open Link (ready)

theorem ne_empty_of_mem_components
    {path name : String}
    (hMem : name ∈ components path) : name ≠ "" := by
  unfold components at hMem
  simpa using (List.mem_filter.mp hMem).2

/- The walk of the probe is from the only fid there is. -/
theorem probeWalk_ramfs
    {names : List String}
    (qid : Qid)
    (hFits : (Call.walk 0 1 names).Fits)
    (hNames : ∀ name ∈ names, name ≠ "")
    (hLock : srv.poisoned = false)
    (tag : UInt16) :
    ((∀ point ∈ walkTrail [] names,
        (srv.ramfs.view point).isSome) ∧
      ∃ tag',
        probeWalk (Peer.deliver hasher conn clock) names
            (ready tag
              (srv.withFids conn
                [(0, FidState.new "/" qid)])) =
          .ok () (ready tag'
            (srv.withFids conn
              [(0, FidState.new "/" qid)]))) ∨
      (¬ ∀ point ∈ walkTrail [] names,
        (srv.ramfs.view point).isSome) ∧
        ∀ link,
          probeWalk (Peer.deliver hasher conn clock) names
              (ready tag
                (srv.withFids conn
                  [(0, FidState.new "/" qid)])) ≠
            .ok () link := by
  by_cases hSome : names = []
  · left
    rw [hSome]
    refine ⟨?_, tag, rfl⟩
    intro point hPoint
    cases hPoint
  · have hFid :
        List.lookup (0 : UInt32)
            [(0, FidState.new "/" qid)] =
          some (FidState.new "/" qid) := rfl
    rw [probeWalk, if_neg hSome]
    rcases Link.walk_ramfs hasher clock conn hFid hFits hNames
        hSome hLock tag with
      ⟨hTrail, state, hWalk⟩ | ⟨hMissing, fault, link, hWalk⟩
    · left
      refine ⟨hTrail, tag + 1 + 1, ?_⟩
      refine ProbeM.bind_eq_ok_iff.mpr
        ⟨_, _, attempt_eq_ok_iff.mpr hWalk, ?_⟩
      rw [ignoring, Link.clunk_ramfs hasher clock conn _ 1
        hLock]
      rfl
    · right
      refine ⟨hMissing, ?_⟩
      intro after hOk
      rcases ProbeM.bind_eq_ok_iff.mp hOk with
        ⟨count, mid, hAttempt, _⟩
      cases (attempt_eq_ok_iff.mp hAttempt).symm.trans hWalk

/-
  The probe of a connection without fids succeeds when there
  is a node at every point of the trail, and then it leaves
  the server as it was.
-/
theorem probeShare_ramfs
    {uname remotePath : String}
    (hUser : (Call.attach 0 none uname "").Fits)
    (hPath :
      (Call.walk 0 1 (components remotePath)).Fits)
    (hLock : srv.poisoned = false) :
    ((∀ point ∈ walkTrail [] (components remotePath),
        (srv.ramfs.view point).isSome) ∧
      ∃ tag,
        probeShare (Peer.deliver hasher conn clock) uname
            remotePath (ready 0 (srv.withFids conn [])) =
          .ok () (ready tag (srv.withFids conn []))) ∨
      (¬ ∀ point ∈ walkTrail [] (components remotePath),
        (srv.ramfs.view point).isSome) ∧
        ∀ link,
          probeShare (Peer.deliver hasher conn clock) uname
              remotePath (ready 0 (srv.withFids conn [])) ≠
            .ok () link := by
  have hVersion :=
    Link.version_ramfs hasher clock conn [] hLock 0
  have hAttach :=
    Link.attach_ramfs hasher clock conn [] hUser hLock 1
  rcases probeWalk_ramfs hasher clock conn
      (qidFromInode hasher "/" srv.ramfs.root) hPath
      (fun _ => ne_empty_of_mem_components) hLock 2 with
    ⟨hTrail, tag, hWalk⟩ | ⟨hMissing, hWalk⟩
  · left
    refine ⟨hTrail, tag + 1, ?_⟩
    refine ProbeM.bind_eq_ok_iff.mpr
      ⟨_, _, attempt_eq_ok_iff.mpr hVersion, ?_⟩
    refine ProbeM.bind_eq_ok_iff.mpr
      ⟨_, _, attempt_eq_ok_iff.mpr hAttach, ?_⟩
    refine ProbeM.bind_eq_ok_iff.mpr ⟨_, _, hWalk, ?_⟩
    exact attempt_eq_ok_iff.mpr
      (Link.clunk_ramfs hasher clock conn _ 0 hLock tag)
  · right
    refine ⟨hMissing, ?_⟩
    intro link hOk
    rcases ProbeM.bind_eq_ok_iff.mp hOk with
      ⟨_, _, hVersion', hOk⟩
    cases hVersion.symm.trans
      (attempt_eq_ok_iff.mp hVersion')
    rcases ProbeM.bind_eq_ok_iff.mp hOk with
      ⟨_, _, hAttach', hOk⟩
    cases hAttach.symm.trans
      (attempt_eq_ok_iff.mp hAttach')
    rcases ProbeM.bind_eq_ok_iff.mp hOk with
      ⟨_, _, hWalk', _⟩
    exact hWalk _ hWalk'

/-
  A RAMFS server that accepts a connection passes the probe
  just when the whole path is there: every name of it, with
  two dots going up, leads to a node.  A probe that succeeds
  leaves the files and the fids of the server alone.
-/
theorem probeRemoteShare_ramfs_iff
    (hasher : Hasher)
    (clock : Clock)
    (srv : Server)
    (conn : Nat)
    (user : Option String)
    (addr remotePath : String)
    (hLock : srv.poisoned = false)
    (hUser : (Call.attach 0 none (probeName user) "").Fits)
    (hPath :
      (Call.walk 0 1 (components remotePath)).Fits) :
    (probeRemoteShare
          (fun _ => .ok ⟨srv.withFids conn [], []⟩)
          (Peer.deliver hasher conn clock) user addr
          remotePath = .ok () ↔
        ∀ point ∈ walkTrail [] (components remotePath),
          (srv.ramfs.view point).isSome) ∧
      ∀ link,
        probeShare (Peer.deliver hasher conn clock)
            (probeName user) remotePath
            (P9Client.new ⟨srv.withFids conn [], []⟩) =
          .ok () link →
        link.peer = ⟨srv.withFids conn [], []⟩ := by
  rw [probeRemoteShare_eq_ok_iff]
  rcases probeShare_ramfs hasher clock conn hUser hPath
      hLock with
    ⟨hTrail, tag, hShare⟩ | ⟨hMissing, hShare⟩
  · constructor
    · exact ⟨fun _ => hTrail,
        fun _ => ⟨_, rfl, _, hShare⟩⟩
    · intro link hOk
      cases hShare.symm.trans hOk
      rfl
  · constructor
    · refine ⟨?_, fun hTrail => (hMissing hTrail).elim⟩
      rintro ⟨peer, hPeer, link, hOk⟩
      cases hPeer
      exact (hShare link hOk).elim
    · intro link hOk
      exact (hShare link hOk).elim

/- A new server has a root, and the root is its parent. -/
theorem probeRemoteShare_ramfs_of_fresh :
    probeRemoteShare
        (fun _ => .ok
          ⟨(Server.start (RamFs.fresh 0)).withFids 7 [], []⟩)
        (Peer.deliver (fun _ _ => 0) 7 (fun _ => 0)) none
        "127.0.0.1:564" "/../.." = .ok () := by
  refine (probeRemoteShare_ramfs_iff (fun _ _ => 0)
    (fun _ => 0) (Server.start (RamFs.fresh 0)) 7 none
    "127.0.0.1:564" "/../.." rfl ⟨by decide, by decide⟩
    ⟨by decide, by decide⟩).1.mpr ?_
  decide

end Planten
