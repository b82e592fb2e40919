import Planten.RamFs.Keys

/-
  Bounds on the strings and the data of a server.

  Every string a client sends comes behind a 16-bit length,
  and no vector grows beyond `isizeMax` bytes.  So the names
  and groups stored in a tree, and the components of the
  paths of fids, are below 64 KiB, and the data of a node is
  within the bound on vectors.

  Key definitions include:
    * `Attrs.SizesFit`
    * `Server.SizesHold`

  Key theorems include:
    * `Server.SizesHold.step`
    * `Server.SizesHold.final`
    * `length_encodeStatPayload_of_fit`
-/

------------------------------------------------------------
-- Sizes of One Node
------------------------------------------------------------

namespace Planten

/- The strings and the data of a node are within bounds. -/
structure Attrs.SizesFit (attrs : Attrs) : Prop where
  name : attrs.name.utf8ByteSize ≤ 65535
  uid : attrs.uid.utf8ByteSize ≤ 65535
  gid : attrs.gid.utf8ByteSize ≤ 65535
  data : attrs.data.length ≤ isizeMax

namespace Inode

theorem length_splice
    (data : Bytes)
    (start : Nat)
    (buf : Bytes) :
    (splice data start buf).length =
      max data.length (start + buf.length) := by
  simp only [splice, List.length_append, List.length_take,
    List.length_replicate, List.length_drop]
  omega

/- Data written over stays within the bound. -/
theorem length_of_overlay
    {data data' buf : Bytes}
    {start : Nat}
    (hFits : data.length ≤ isizeMax)
    (hOverlay : overlay data start buf = .ok data') :
    data'.length ≤ isizeMax := by
  rw [overlay_eq] at hOverlay
  split at hOverlay
  · cases hOverlay
  · split at hOverlay
    · cases hOverlay
    · cases hOverlay
      rw [length_splice]
      omega

/- Data resized by a stat stays within the bound. -/
theorem length_of_statData
    {stat : Stat}
    {data data' : Bytes}
    (hFits : data.length ≤ isizeMax)
    (hData : statData stat data = .ok data') :
    data'.length ≤ isizeMax := by
  unfold statData at hData
  split at hData
  · have hLength := length_of_resize hData
    unfold resize at hData
    split at hData
    · omega
    · split at hData
      · omega
      · cases hData
  · cases hData
    exact hFits

theorem sizesFit_of_applyRootStat
    {stat : Stat}
    {attrs : Attrs}
    (hStat : stat.StringsFit)
    (hFit : attrs.SizesFit) :
    (applyRootStat stat attrs).SizesFit := by
  refine ⟨hFit.name, hFit.uid, ?_, hFit.data⟩
  simp only [applyRootStat]
  split
  · exact hStat.gid
  · exact hFit.gid

theorem sizesFit_of_applyStat
    {stat : Stat}
    {attrs attrs' : Attrs}
    (hStat : stat.StringsFit)
    (hFit : attrs.SizesFit)
    (hAttrs : applyStat stat attrs = .ok attrs') :
    attrs'.SizesFit := by
  rw [applyStat, bind_eq_ok_iff] at hAttrs
  rcases hAttrs with ⟨data, hData, hAttrs⟩
  cases hAttrs
  have hRoot := sizesFit_of_applyRootStat hStat hFit
  exact ⟨hRoot.name, hRoot.uid, hRoot.gid,
    length_of_statData hFit.data hData⟩

end Inode

theorem sizesFit_freshAttrs
    {name : String}
    (mode : UInt32)
    (now : SystemTime)
    (hName : name.utf8ByteSize ≤ 65535) :
    (freshAttrs name mode now).SizesFit where
  name := hName
  uid := (by decide : ("user" : String).utf8ByteSize ≤ 65535)
  gid := (by decide : ("group" : String).utf8ByteSize ≤ 65535)
  data := Nat.zero_le _

/- A created node is empty, and its name is its last key. -/
theorem sizesFit_of_createdAttrs
    (clock : Clock)
    (p : List String)
    (perm : UInt32)
    {q : List String}
    (hKeys : ∀ c ∈ q, c.utf8ByteSize ≤ 65535) :
    (FlatFs.createdAttrs clock p perm q).SizesFit := by
  have hName : (q.getLastD "").utf8ByteSize ≤ 65535 := by
    cases hLast : q.getLast? with
    | none =>
        rw [List.getLastD_eq_getLast?, hLast]
        decide
    | some c =>
        rw [List.getLastD_eq_getLast?, hLast]
        exact hKeys c (List.mem_of_getLast? hLast)
  unfold FlatFs.createdAttrs
  split
  · exact sizesFit_freshAttrs _ _ hName
  · exact sizesFit_freshAttrs _ _ hName

/- The record of a node within bounds is small. -/
theorem length_encodeStatPayload_of_fit
    (hasher : Hasher)
    (path : String)
    {inode : Inode}
    (hFit : inode.val.SizesFit) :
    (encodeStatPayload
      (inodeToStat hasher path inode)).length < 2 ^ 19 := by
  have hName := hFit.name
  have hUid := hFit.uid
  have hGid := hFit.gid
  rw [length_encodeStatPayload, length_statRecord]
  simp only [inodeToStat]
  omega

end Planten

------------------------------------------------------------
-- Sizes of a Server
------------------------------------------------------------

namespace Planten

/- The name of a create request is below 64 KiB. -/
theorem Request.name_of_decode
    {msgType : UInt8}
    {body : Bytes}
    {fid : UInt32}
    {name : String}
    {perm : UInt32}
    {mode : UInt8}
    (hDecode :
      decode msgType body =
        .ok (.tcreate fid name perm mode)) :
    name.utf8ByteSize ≤ 65535 := by
  have hType : msgType = TCREATE := by
    rcases decode_msgType hDecode with hNone | hSome
    · cases hNone
    · exact (Option.some.inj hSome).symm
  have hName :
      Decoder.Yields createFields
        (fun r => r.2.1.utf8ByteSize ≤ 65535) := by
    refine (Decoder.yields_trivial _).bind (fun fid _ => ?_)
    refine (yields_text _).bind (fun name hName => ?_)
    refine (Decoder.yields_trivial _).bind (fun perm _ => ?_)
    refine (Decoder.yields_trivial _).bind (fun mode _ => ?_)
    exact Decoder.yields_pure hName
  subst hType
  change (createFields.run body).map _ = _ at hDecode
  cases hRun : createFields.run body with
  | error err =>
      rw [hRun] at hDecode
      cases hDecode
  | ok r =>
      rw [hRun] at hDecode
      cases hDecode
      exact hName body r.1 r.2 hRun

namespace Server

variable {hasher : Hasher}

/- The keys, strings and data of a server are bounded. -/
structure SizesHold (srv : Server) : Prop where
  keys : srv.KeysHold (fun c => c.utf8ByteSize ≤ 65535)
  attrs : srv.ramfs.view.Forall (fun _ attrs => attrs.SizesFit)

/- Every request adds keys below 64 KiB only. -/
theorem addsKeys_of_asks
    {srv : Server}
    {event : Event}
    {clock : Clock}
    {fids : FidTable}
    {req : Request}
    (m : FlatFs)
    (hAsks : srv.Asks event clock fids req) :
    req.AddsKeys (fun c => c.utf8ByteSize ≤ 65535) clock m
      fids := by
  rcases hAsks with ⟨conn, msgType, tag, body, _, _, hDecode⟩
  cases req with
  | tcreate fid name perm mode =>
      apply Request.AddsKeys.tcreate
      intro state newPath _ _ _ _ c hMem
      have hName := Request.name_of_decode hDecode
      unfold walkComponents at hMem
      split_ifs at hMem
      · cases hMem
      · cases hMem
      · cases hMem
      · exact (utf8ByteSize_of_mem_components hMem).trans
          hName
  | twstat fid record =>
      apply Request.AddsKeys.twstat
      intro state stat rest parent filename attrs _ hRecord
        _ _ _ _ _ _
      exact (yields_decodeStat record stat rest hRecord).name
  | _ =>
      apply Request.AddsKeys.other
      · intro _ _ _ _ hEq
        cases hEq
      · intro _ _ hEq
        cases hEq

theorem sizes_of_change
    {clock : Clock}
    {m m' : FlatFs}
    {fids : FidTable}
    {req : Request}
    {reply : Reply}
    (hView : m.Forall (fun _ attrs => attrs.SizesFit))
    (hFids :
      ∀ fid state,
        fids.lookup fid = some state →
          ∀ c ∈ components state.path,
            c.utf8ByteSize ≤ 65535)
    (hAdds :
      req.AddsKeys (fun c => c.utf8ByteSize ≤ 65535) clock m
        fids)
    (hChange : Change clock m fids req m' reply) :
    m'.Forall (fun _ attrs => attrs.SizesFit) := by
  cases hChange with
  | same hQuiet =>
      exact hView
  | created hFid hStep hFresh hEpoch =>
      apply PathMap.Forall.fill hView
      intro q hPrefix _
      apply sizesFit_of_createdAttrs
      intro c hMem
      exact keys_of_created hFids hAdds hFid hStep hFresh
        hEpoch c (hPrefix.subset hMem)
  | written hFid hMode hAllowed hNonempty hNode hData =>
      have hFit := hView _ _ hNode
      exact PathMap.Forall.assign hView
        ⟨hFit.name, hFit.uid, hFit.gid,
          Inode.length_of_overlay hFit.data hData⟩
  | restatedRoot hFid hRecord hRoot hNode =>
      exact PathMap.Forall.assign hView
        (Inode.sizesFit_of_applyRootStat
          (yields_decodeStat _ _ _ hRecord) (hView _ _ hNode))
  | restated hFid hRecord hPath hNode hAttrs hKept =>
      exact PathMap.Forall.assign hView
        (Inode.sizesFit_of_applyStat
          (yields_decodeStat _ _ _ hRecord) (hView _ _ hNode)
          hAttrs)
  | renamed hFid hRecord hPath hNode hAttrs hName hNew
      hFree =>
      have hStat := yields_decodeStat _ _ _ hRecord
      have hFit :=
        Inode.sizesFit_of_applyStat hStat (hView _ _ hNode)
          hAttrs
      apply PathMap.Forall.relabel hView
      · exact ⟨hStat.name, hFit.uid, hFit.gid, hFit.data⟩
      · intro q w _ hBelow
        exact hBelow
  | removed hFid hNonempty hNode =>
      exact PathMap.Forall.prune hView _

/- Every event keeps the bounds. -/
theorem SizesHold.step
    (hasher : Hasher)
    {srv : Server}
    (hHold : srv.SizesHold)
    (event : Event) :
    (srv.step hasher event).SizesHold := by
  constructor
  · apply hHold.keys.step
    intro clock fids req hAsks
    exact addsKeys_of_asks _ hAsks
  · rcases change_of_step hasher srv event with
      ⟨hSame, _⟩ |
        ⟨clock, fids, req, reply, hAsks, _, hChange⟩
    · rw [hSame]
      exact hHold.attrs
    · have hConn := hAsks
      rcases hConn with ⟨conn, _, _, _, _, hConn, _⟩
      exact sizes_of_change hHold.attrs
        (fun fid state =>
          hHold.keys.fids conn fids fid state hConn)
        (addsKeys_of_asks _ hAsks) hChange

/- Every run keeps them. -/
theorem SizesHold.final
    (hasher : Hasher)
    {srv : Server}
    (hHold : srv.SizesHold)
    (events : List Event) :
    (Run.final (Server.step hasher) srv events).SizesHold :=
  Run.invariant _
    (fun _ event hHere => hHere.step hasher event) hHold
    events

/- The empty file system is within the bounds. -/
theorem sizesHold_start
    {now : SystemTime}
    {fs : RamFs}
    (hNew : RamFs.new now = .ok fs) :
    (start fs).SizesHold := by
  refine ⟨keysHold_start hNew, ?_⟩
  change fs.view.Forall _
  rw [RamFs.view_of_new hNew]
  apply PathMap.Forall.single
  exact sizesFit_freshAttrs _ _ (by decide)

end Server

end Planten
