import Planten.Library.Moves
import Planten.NineP.Streams
import Planten.RamFs.Listing
import Planten.RamFs.Walks

/-
  What a wstat request that is answered has done.

  Off the root the node shows every field the stat asks for,
  at the place it is renamed to.  The name is stored as it
  is, so a walk finds the node there only if the name is
  plain.  At the root the length and the name are dropped,
  and the request is answered all the same.  So it is when
  the new record is too long for a client to read it.

  Key definitions include:
    * `RamFs.ShowsStat`
    * `Stat.ShownBy`, `Stat.RecordFits`
    * `restatedPath`
    * `RamFs.Restated`

  Key theorems include:
    * `RamFs.Reachable.plainRoot`
    * `showsStat_of_fits`, `shows_iff`
    * `walkComponents_of_not_plain`
    * `plain_of_restated`
    * `Change.moves`
    * `Server.wstat_takes_effect_iff`
-/

------------------------------------------------------------
-- Trees of a Server
------------------------------------------------------------

namespace Planten

/- The root has the name `/` and no data. -/
def FlatFs.PlainRoot (m : FlatFs) : Prop :=
  ∃ attrs, m [] = some attrs ∧ attrs.name = "/" ∧
    attrs.data = []

namespace FlatFs

variable {m m' : FlatFs}

theorem PlainRoot.of_eq
    (hRoot : m.PlainRoot)
    (hSame : m' [] = m []) :
    m'.PlainRoot := by
  unfold PlainRoot
  rw [hSame]
  exact hRoot

/- Filling in a path leaves the root alone. -/
theorem PlainRoot.fill
    (hRoot : m.PlainRoot)
    (fresh : List String → Attrs)
    (p : List String) :
    PlainRoot (PathMap.fill fresh m p) := by
  rcases hRoot with ⟨attrs, hNode, hFields⟩
  exact ⟨attrs, PathMap.fill_of_isSome fresh m p hNode,
    hFields⟩

/- So does a branch that goes somewhere below it. -/
theorem PlainRoot.plant
    (hRoot : m.PlainRoot)
    {p : List String}
    (hBelow : p ≠ [])
    (b : FlatFs) :
    PlainRoot (PathMap.plant m p b) := by
  apply hRoot.of_eq
  apply PathMap.plant_of_not_isPrefix
  intro hPrefix
  exact hBelow (List.prefix_nil.mp hPrefix)

theorem PlainRoot.prune
    (hRoot : m.PlainRoot)
    {p : List String}
    (hBelow : p ≠ []) :
    PlainRoot (PathMap.prune m p) := by
  apply hRoot.of_eq
  apply PathMap.prune_of_not_isPrefix
  intro hPrefix
  exact hBelow (List.prefix_nil.mp hPrefix)

theorem PlainRoot.assign
    (hRoot : m.PlainRoot)
    {p : List String}
    (hBelow : p ≠ [])
    (attrs : Attrs) :
    PlainRoot (PathMap.assign m p attrs) := by
  apply hRoot.of_eq
  rw [PathMap.assign, if_neg hBelow.symm]

theorem PlainRoot.createFile
    {p : List String}
    {data : Bytes}
    {clock : Clock}
    {u : Unit}
    (hRoot : m.PlainRoot)
    (hOp : m.createFile p data clock = .ok (m', u)) :
    m'.PlainRoot := by
  unfold FlatFs.createFile at hOp
  split at hOp
  · cases hOp
    exact hRoot
  · rename_i hBelow
    split at hOp
    · cases hOp
    · cases hOp
      exact (hRoot.fill _ _).plant hBelow _

theorem PlainRoot.createDir
    {p : List String}
    {clock : Clock}
    {u : Unit}
    (hRoot : m.PlainRoot)
    (hOp : m.createDir p clock = .ok (m', u)) :
    m'.PlainRoot := by
  unfold FlatFs.createDir at hOp
  split at hOp
  · cases hOp
  · cases hOp
    exact hRoot.fill _ _

theorem PlainRoot.write
    {p : List String}
    {offset : UInt64}
    {buf : Bytes}
    {clock : Clock}
    {written : Option UInt32}
    (hRoot : m.PlainRoot)
    (hOp :
      m.write p offset buf clock = .ok (m', written)) :
    m'.PlainRoot := by
  unfold FlatFs.write at hOp
  split at hOp
  · cases hOp
    exact hRoot
  · rename_i hBelow
    split at hOp
    · cases hOp
      exact hRoot
    · rw [bind_eq_ok_iff] at hOp
      rcases hOp with ⟨data, _, hOp⟩
      cases hOp
      exact hRoot.assign hBelow _

theorem PlainRoot.remove
    {p : List String}
    {done : Option Unit}
    (hRoot : m.PlainRoot)
    (hOp : m.remove p = (m', done)) :
    m'.PlainRoot := by
  unfold FlatFs.remove at hOp
  split at hOp
  · cases hOp
    exact hRoot
  · rename_i hGone
    cases hOp
    exact hRoot.prune (fun hNil => hGone (Or.inl hNil))

/- A stat of the root keeps its name and its data. -/
theorem PlainRoot.wstatFromStat
    {p : List String}
    {stat : Stat}
    {done : Option Unit}
    (hRoot : m.PlainRoot)
    (hOp : m.wstatFromStat p stat = .ok (m', done)) :
    m'.PlainRoot := by
  unfold FlatFs.wstatFromStat at hOp
  split at hOp
  · cases hOp
    exact hRoot
  · rename_i attrs hNode
    split at hOp
    · rename_i hLast
      cases List.getLast?_eq_none_iff.mp hLast
      cases hOp
      rcases hRoot with ⟨attrs', hNode', hName, hData⟩
      cases hNode.symm.trans hNode'
      exact ⟨Inode.applyRootStat stat attrs,
        if_pos rfl, hName, hData⟩
    · rename_i filename hLast
      have hBelow : p ≠ [] := by
        rintro rfl
        cases hLast
      have hConcat (k : String) : p.dropLast ++ [k] ≠ [] :=
        List.append_ne_nil_of_right_ne_nil _
          (List.cons_ne_nil k [])
      rw [bind_eq_ok_iff] at hOp
      rcases hOp with ⟨attrs', hAttrs, hOp⟩
      split at hOp
      · split at hOp
        · cases hOp
          exact hRoot
        · cases hOp
          exact (hRoot.prune (hConcat _)).plant (hConcat _) _
      · cases hOp
        exact hRoot.assign hBelow _

/- Every node belongs to the one user there is. -/
def OfUser (m : FlatFs) : Prop :=
  PathMap.Forall m (fun _ attrs => attrs.uid = "user")

theorem OfUser.createFile
    {p : List String}
    {data : Bytes}
    {clock : Clock}
    {u : Unit}
    (hUser : m.OfUser)
    (hOp : m.createFile p data clock = .ok (m', u)) :
    m'.OfUser := by
  unfold FlatFs.createFile at hOp
  split at hOp
  · cases hOp
    exact hUser
  · split at hOp
    · cases hOp
    · cases hOp
      refine PathMap.Forall.plant
        (PathMap.Forall.fill hUser (fun _ _ _ => rfl)) ?_
      exact PathMap.Forall.single rfl

theorem OfUser.createDir
    {p : List String}
    {clock : Clock}
    {u : Unit}
    (hUser : m.OfUser)
    (hOp : m.createDir p clock = .ok (m', u)) :
    m'.OfUser := by
  unfold FlatFs.createDir at hOp
  split at hOp
  · cases hOp
  · cases hOp
    exact PathMap.Forall.fill hUser (fun _ _ _ => rfl)

theorem OfUser.write
    {p : List String}
    {offset : UInt64}
    {buf : Bytes}
    {clock : Clock}
    {written : Option UInt32}
    (hUser : m.OfUser)
    (hOp :
      m.write p offset buf clock = .ok (m', written)) :
    m'.OfUser := by
  unfold FlatFs.write at hOp
  split at hOp
  · cases hOp
    exact hUser
  · split at hOp
    · cases hOp
      exact hUser
    · rename_i attrs hNode
      have hOwner : attrs.uid = "user" := hUser _ _ hNode
      rw [bind_eq_ok_iff] at hOp
      rcases hOp with ⟨data, _, hOp⟩
      cases hOp
      exact PathMap.Forall.assign hUser hOwner

theorem OfUser.remove
    {p : List String}
    {done : Option Unit}
    (hUser : m.OfUser)
    (hOp : m.remove p = (m', done)) :
    m'.OfUser := by
  unfold FlatFs.remove at hOp
  split at hOp
  · cases hOp
    exact hUser
  · cases hOp
    exact PathMap.Forall.prune hUser p

/- A stat gives a node no other owner. -/
theorem OfUser.wstatFromStat
    {p : List String}
    {stat : Stat}
    {done : Option Unit}
    (hUser : m.OfUser)
    (hOp : m.wstatFromStat p stat = .ok (m', done)) :
    m'.OfUser := by
  unfold FlatFs.wstatFromStat at hOp
  split at hOp
  · cases hOp
    exact hUser
  · rename_i attrs hNode
    have hOwner : attrs.uid = "user" := hUser _ _ hNode
    split at hOp
    · cases hOp
      exact PathMap.Forall.assign hUser hOwner
    · rw [bind_eq_ok_iff] at hOp
      rcases hOp with ⟨attrs', hAttrs, hOp⟩
      have hOwner' : attrs'.uid = "user" := by
        rw [Inode.applyStat, bind_eq_ok_iff] at hAttrs
        rcases hAttrs with ⟨data, _, hAttrs⟩
        cases hAttrs
        exact hOwner
      split at hOp
      · split at hOp
        · cases hOp
          exact hUser
        · cases hOp
          exact PathMap.Forall.relabel hUser hOwner'
            (fun _ _ _ hBelow => hBelow)
      · cases hOp
        exact PathMap.Forall.assign hUser hOwner'

end FlatFs

namespace RamFs

/- The root of a reachable file system is plain. -/
theorem Reachable.plainRoot
    {fs : RamFs}
    (hReach : fs.Reachable) :
    fs.view.PlainRoot := by
  induction hReach with
  | new hNew =>
      rw [view_of_new hNew]
      exact ⟨_, if_pos rfl, rfl, rfl⟩
  | createFile hReach hOp ih =>
      exact ih.createFile
        (viewResult_ok hOp (view_createFile _ _ _ _))
  | createDir hReach hOp ih =>
      exact ih.createDir
        (viewResult_ok hOp (view_createDir _ _ _))
  | write hReach hOp ih =>
      exact ih.write
        (viewResult_ok hOp (view_write _ _ _ _ _))
  | remove hReach hOp ih =>
      exact ih.remove
        (Except.ok.inj
          (viewResult_ok hOp (view_remove _ _)))
  | wstatFromStat hReach hOp ih =>
      exact ih.wstatFromStat
        (viewResult_ok hOp (view_wstatFromStat _ _ _))

/- Its nodes are the user's. -/
theorem Reachable.ofUser
    {fs : RamFs}
    (hReach : fs.Reachable) :
    fs.view.OfUser := by
  induction hReach with
  | new hNew =>
      rw [view_of_new hNew]
      exact PathMap.Forall.single rfl
  | createFile hReach hOp ih =>
      exact ih.createFile
        (viewResult_ok hOp (view_createFile _ _ _ _))
  | createDir hReach hOp ih =>
      exact ih.createDir
        (viewResult_ok hOp (view_createDir _ _ _))
  | write hReach hOp ih =>
      exact ih.write
        (viewResult_ok hOp (view_write _ _ _ _ _))
  | remove hReach hOp ih =>
      exact ih.remove
        (Except.ok.inj
          (viewResult_ok hOp (view_remove _ _)))
  | wstatFromStat hReach hOp ih =>
      exact ih.wstatFromStat
        (viewResult_ok hOp (view_wstatFromStat _ _ _))

/- The paths of a file system are bounded. -/
theorem view_bounded (fs : RamFs) :
    PathMap.Bounded fs.view :=
  KeyTree.entries_bounded fs.root

end RamFs

/- What a request leaves is reachable from what it found. -/
theorem Effect.reachable
    {hasher : Hasher}
    {clock : Clock}
    {fs fs' : RamFs}
    {fids fids' : FidTable}
    {req : Request}
    {reply : Reply}
    (hEffect :
      Effect hasher clock fs fids req fs' fids' reply)
    (hReach : fs.Reachable) :
    fs'.Reachable := by
  cases hEffect with
  | create hFid hStep hFresh hOp hStat =>
      unfold createNode at hOp
      split at hOp
      · exact .createDir hReach hOp
      · exact .createFile hReach hOp
  | write hFid hMode hAllowed hOp =>
      exact .write hReach hOp
  | remove hFid hOp | removeFailed hFid hOp =>
      exact .remove hReach hOp
  | wstat hFid hRecord hOp =>
      exact .wstatFromStat hReach hOp
  | _ =>
      exact hReach

namespace Server

/- Every event keeps the tree reachable. -/
theorem reachable_step
    (hasher : Hasher)
    (srv : Server)
    (event : Event)
    (hReach : srv.ramfs.Reachable) :
    (srv.step hasher event).ramfs.Reachable := by
  rcases step_spec hasher srv event with ⟨reply, hStep, _⟩
  generalize srv.step hasher event = srv' at hStep ⊢
  cases hStep with
  | served hConn hDecode hEffect hFrame hSent =>
      exact hEffect.reachable hReach
  | _ =>
      exact hReach

/- The tree of a server that starts empty is reachable. -/
theorem reachable_final
    (hasher : Hasher)
    {fs : RamFs}
    (hReach : fs.Reachable)
    (events : List Event) :
    (Run.final (step hasher) (start fs)
      events).ramfs.Reachable :=
  @Run.invariant _ _ (step hasher)
    (fun srv => srv.ramfs.Reachable)
    (reachable_step hasher) (start fs) hReach events

end Server

end Planten

------------------------------------------------------------
-- What a Client Is Shown
------------------------------------------------------------

namespace Planten

/-
  What a client reads off the frame that answers a stat
  request through a fid at the path, in every server that
  holds the tree and whose lock is free.
-/
def RamFs.ShowsStat
    (hasher : Hasher)
    (fs : RamFs)
    (path : String)
    (shown : Stat) : Prop :=
  ∀ (srv : Server) conn fid tag clock,
    srv.ramfs = fs →
      srv.poisoned = false →
        srv.fidPath conn fid = some path →
          ∃ size body rest,
            RawMessage.readFrom.run
                (srv.sent hasher
                  (.request conn TSTAT tag
                    (encodeStatBody fid) clock)) =
                .ok (⟨size, RSTAT, tag, body⟩, []) ∧
              decodeStat.run body = .ok (shown, rest)

variable {hasher : Hasher} {fs : RamFs} {path : String}
variable {inode : Inode} {shown : Stat}

/- A record that fits 16 bits is shown as it is. -/
theorem showsStat_of_fits
    (hNode : fs.stat path = some inode)
    (hFits :
      (statRecord (inodeToStat hasher path inode)).length ≤
        65535) :
    fs.ShowsStat hasher path
      (inodeToStat hasher path inode) := by
  intro srv conn fid tag clock hFs hLock hPath
  subst hFs
  rcases Server.lookup_of_fidPath hPath with
    ⟨fids, state, hConn, hFid, rfl⟩
  have hBody :
      7 + (Reply.rstat (inodeToStat hasher state.path
        inode)).body.length < 2 ^ 32 := by
    rw [Reply.body, length_encodeStatPayload]
    omega
  have hSafe (cause : Panic) (poisons : Bool) :
      ¬ Hazard hasher clock tag (srv.session fids)
        (.tstat fid) cause poisons := by
    intro hHazard
    cases hHazard with
    | poisonedLock hPoisoned =>
        cases hLock.symm.trans hPoisoned
    | statFrame hFid' hStat hFrame =>
        cases hFid.symm.trans hFid'
        cases hNode.symm.trans hStat
        cases (Reply.frame_of_fits hBody).symm.trans hFrame
  rcases Server.served_of_safe hConn (Request.decode_stat fid)
    hSafe (by rintro _ _ _ _ _ ⟨⟩) with
    ⟨_, _, reply, hEffect, hStep, _, _⟩
  rcases Server.sent_of_step hStep with
    ⟨frame, hFrame, hSent⟩
  rw [hSent]
  cases hEffect with
  | stat hFid' hStat =>
      cases hFid.symm.trans hFid'
      cases hNode.symm.trans hStat
      cases (Reply.frame_of_fits hBody).symm.trans hFrame
      exact ⟨_, _, [],
        (decodes_readFrom RSTAT tag hBody).run_nil,
        (decodes_decodeStat hFits).run_nil⟩
  | refused hRefusal =>
      cases hRefusal with
      | unknownFid hSource hNone =>
          cases hSource
          cases hFid.symm.trans hNone
      | statMissing hFid' hNone =>
          cases hFid.symm.trans hFid'
          cases hNode.symm.trans hNone

/- What is shown is what the record of the node is read as. -/
theorem RamFs.ShowsStat.decodes
    (hShows : fs.ShowsStat hasher path shown)
    (hNode : fs.stat path = some inode) :
    ∃ rest,
      decodeStat.run
          (encodeStatPayload
            (inodeToStat hasher path inode) ++ []) =
        .ok (shown, rest) := by
  -- one connection with one fid, which is at the path
  rcases hShows
    ⟨fs, false, fun _ => some [(0, .new path ⟨0, 0, 0⟩)]⟩
    0 0 0 (fun _ => 0) rfl rfl rfl with
    ⟨size, body, rest, hRead, hDecode⟩
  have hType :
      Server.replyType hasher
          ⟨fs, false,
            fun _ => some [(0, .new path ⟨0, 0, 0⟩)]⟩
          (.request 0 TSTAT 0 (encodeStatBody 0)
            (fun _ => 0)) =
        some RSTAT := by
    rw [Server.replyType, (readFrom_ok hRead).2.2]
    rfl
  rcases Server.effect_of_replyType rfl
    (Request.decode_stat 0) hType with
    ⟨fids', reply, hReply, hEffect, hFrame⟩
  generalize (Server.step hasher _ _).ramfs = fs' at hEffect
  cases hEffect with
  | stat hFid hStat =>
      cases hFid
      cases hNode.symm.trans hStat
      have hSize := fits_of_readFrom hFrame hRead
      rw [Reply.frame_of_fits hSize] at hFrame
      rw [← Except.ok.inj hFrame] at hRead
      cases (decodes_readFrom RSTAT 0 hSize).run_nil.symm.trans
        hRead
      rw [List.append_nil]
      exact ⟨rest, hDecode⟩
  | refused hRefusal =>
      exact absurd hReply
        (by decide : RERROR ≠ RSTAT)

end Planten

------------------------------------------------------------
-- Restated Nodes
------------------------------------------------------------

namespace Planten

/- The name of a node after a stat. -/
def Stat.nameFor
    (stat : Stat)
    (name : String) : String :=
  if stat.name ≠ "" then stat.name else name

/- The group of a node after a stat. -/
def Stat.gidFor
    (stat : Stat)
    (gid : String) : String :=
  if stat.gid ≠ "" then stat.gid else gid

/- The record of a node still fits 16 bits after a stat. -/
def Stat.RecordFits
    (stat : Stat)
    (attrs : Attrs) : Prop :=
  47 + (stat.nameFor attrs.name).utf8ByteSize +
      2 * attrs.uid.utf8ByteSize +
      (stat.gidFor attrs.gid).utf8ByteSize ≤
    65535

/-
  The record of a node shows what a stat asks for, and what
  it showed before where nothing is asked for.
-/
structure Stat.ShownBy
    (asked before after : Stat) : Prop where
  mode :
    after.mode =
      if asked.mode ≠ 0xffffffff then
        asked.mode
      else
        before.mode
  mtime :
    after.mtime =
      if asked.mtime ≠ 0xffffffff then
        asked.mtime
      else
        before.mtime
  length :
    after.length =
      if asked.length ≠ 0xffffffffffffffff then
        asked.length
      else
        before.length
  name : after.name = asked.nameFor before.name
  gid : after.gid = asked.gidFor before.gid

/-
  Where a client finds a node after a stat: at the old path,
  or by a walk up and along the new name.
-/
def restatedPath
    (path : String)
    (stat : Stat) : String :=
  trailEndPath path
    (if stat.name = "" then [] else ["..", stat.name])

/-
  A stat of the node at a path has taken effect: a client
  that asks for the record of the node is shown it, the data
  that are left are the old ones, the branch has moved along,
  and nothing else has changed.
-/
structure RamFs.Restated
    (hasher : Hasher)
    (fs fs' : RamFs)
    (path : String)
    (stat : Stat) : Prop where
  shown :
    ∃ inode inode' after,
      fs.stat path = some inode ∧
        fs'.stat (restatedPath path stat) = some inode' ∧
        fs'.ShowsStat hasher (restatedPath path stat)
          after ∧
        stat.ShownBy (inodeToStat hasher path inode) after ∧
        inode'.val.data.take
            (min inode.val.data.length
              inode'.val.data.length) =
          inode.val.data.take
            (min inode.val.data.length
              inode'.val.data.length)
  below :
    ∀ rest, rest ≠ [] →
      fs'.view
          (components (restatedPath path stat) ++ rest) =
        fs.view (components path ++ rest)
  left :
    ∀ q, components path <+: q →
      ¬ components (restatedPath path stat) <+: q →
        fs'.view q = none
  others :
    ∀ q, ¬ components path <+: q →
      ¬ components (restatedPath path stat) <+: q →
        fs'.view q = fs.view q

theorem components_restatedPath
    (path : String)
    (stat : Stat) :
    components (restatedPath path stat) =
      if stat.name = "" then
        components path
      else
        walkComponents (components path).dropLast
          stat.name := by
  unfold restatedPath
  split
  · rw [components_trailEndPath (fun _ hMem =>
      (List.not_mem_nil hMem).elim)]
    rfl
  · rename_i hName
    have hNames :
        ∀ name ∈ ["..", stat.name], name ≠ "" := by
      simp [hName]
    rw [components_trailEndPath hNames]
    rfl

/-
  A walk along a name that is not plain goes up, or to a node
  that is named by one of its parts.
-/
theorem walkComponents_of_not_plain
    (base : List String)
    {name : String}
    (hName : name ≠ "")
    (hPlain : ¬ PlainName name) :
    walkComponents base name <+: base ∨
      ∃ k ∈ components name,
        (walkComponents base name).getLast? = some k ∧
          k ≠ name := by
  unfold walkComponents
  split_ifs with hDot hDots hSlash
  · exact Or.inl List.prefix_rfl
  · exact Or.inl (List.dropLast_prefix base)
  · exact Or.inl List.nil_prefix
  · have hHolds : '/' ∈ name.toList := by
      by_contra hFree
      exact hPlain ⟨hName, hFree, hDot, hDots⟩
    cases hLast : (components name).getLast? with
    | none =>
        rw [List.getLast?_eq_none_iff.mp hLast,
          List.append_nil]
        exact Or.inl List.prefix_rfl
    | some k =>
        have hFree :=
          slashFree_of_mem_components
            (List.mem_of_getLast? hLast)
        refine Or.inr
          ⟨k, List.mem_of_getLast? hLast, ?_, ?_⟩
        · rw [List.getLast?_append, hLast]
          rfl
        · rintro rfl
          exact hFree hHolds

/- A node of the map is found at its path. -/
theorem RamFs.stat_of_view
    {fs : RamFs}
    {path : String}
    {attrs : Attrs}
    (hNode : fs.view (components path) = some attrs) :
    ∃ inode, fs.stat path = some inode ∧
      inode.val = attrs :=
  (KeyTree.entries_eq_some_iff _ _ _).mp hNode

/- Data that are made longer or shorter keep their start. -/
theorem take_of_statData
    {stat : Stat}
    {data data' : Bytes}
    (hData : Inode.statData stat data = .ok data') :
    data'.take (min data.length data'.length) =
      data.take (min data.length data'.length) := by
  unfold Inode.statData at hData
  split at hData
  · unfold resize at hData
    split at hData
    · cases hData
      rw [List.take_take]
      congr 1
      simp only [List.length_take]
      omega
    · split at hData
      · cases hData
        rw [List.take_append_of_le_length (min_le_left _ _)]
      · cases hData
  · cases hData
    rfl

theorem Inode.kept_of_applyStat
    {stat : Stat}
    {attrs attrs' : Attrs}
    (hAttrs : applyStat stat attrs = .ok attrs') :
    attrs'.name = attrs.name ∧ attrs'.uid = attrs.uid ∧
      attrs'.gid = stat.gidFor attrs.gid := by
  rw [applyStat, bind_eq_ok_iff] at hAttrs
  rcases hAttrs with ⟨data, _, hAttrs⟩
  cases hAttrs
  exact ⟨rfl, rfl, rfl⟩

variable {hasher : Hasher} {stat : Stat}
variable {fs fs' : RamFs} {path path' : String}
variable {inode inode' : Inode}

/- A node other than the root shows its stat. -/
theorem shownBy_of_applyStat
    {attrs : Attrs}
    (hAttrs : Inode.applyStat stat inode.val = .ok attrs)
    (hVal :
      inode'.val =
        { attrs with
          name := stat.nameFor inode.val.name }) :
    stat.ShownBy (inodeToStat hasher path inode)
      (inodeToStat hasher path' inode') := by
  have hLength := (Inode.length_of_applyStat hAttrs).1
  rw [Inode.applyStat, bind_eq_ok_iff] at hAttrs
  rcases hAttrs with ⟨data, _, hAttrs⟩
  cases hAttrs
  constructor
  · simp only [inodeToStat, hVal]
    rfl
  · simp only [inodeToStat, hVal]
    rfl
  · simp only [inodeToStat, hVal, hLength]
    by_cases hAll : stat.length = 0xffffffffffffffff
    · rw [if_pos hAll, if_neg (not_not.mpr hAll)]
    · rw [if_neg hAll, if_pos hAll, UInt64.ofNat_toNat]
  · simp only [inodeToStat, hVal]
  · simp only [inodeToStat, hVal]
    rfl

/- The root shows neither a new length nor a new name. -/
theorem shownBy_applyRootStat_iff
    (hVal :
      inode'.val = Inode.applyRootStat stat inode.val)
    (hName : inode.val.name = "/")
    (hData : inode.val.data = []) :
    stat.ShownBy (inodeToStat hasher path inode)
        (inodeToStat hasher path' inode') ↔
      (stat.length = 0xffffffffffffffff ∨
        stat.length = 0) ∧
      (stat.name = "" ∨ stat.name = "/") := by
  have hKept :
      (Inode.applyRootStat stat inode.val).name = "/" ∧
        (Inode.applyRootStat stat inode.val).data = [] :=
    ⟨hName, hData⟩
  constructor
  · intro hShown
    have hShownName := hShown.name
    have hLength := hShown.length
    simp only [inodeToStat, hVal, hKept, hName, hData,
      Stat.nameFor] at hShownName hLength
    constructor
    · split_ifs at hLength with hAsked
      · exact Or.inr hLength.symm
      · exact Or.inl (not_not.mp hAsked)
    · split_ifs at hShownName with hAsked
      · exact Or.inr hShownName.symm
      · exact Or.inl (not_not.mp hAsked)
  · rintro ⟨hLength, hNewName⟩
    constructor
    · simp only [inodeToStat, hVal]
      rfl
    · simp only [inodeToStat, hVal]
      rfl
    · simp only [inodeToStat, hVal, hKept, hData]
      split_ifs with hAsked
      · exact (hLength.resolve_left hAsked).symm
      · rfl
    · simp only [inodeToStat, hVal, hKept, hName,
        Stat.nameFor]
      split_ifs with hAsked
      · exact (hNewName.resolve_left hAsked).symm
      · rfl
    · simp only [inodeToStat, hVal]
      rfl

/-
  A client is shown what a stat asks for just when the record
  holds it and fits.  The strings that are read off a record
  are short, so a record that shows them has no others.
-/
theorem shows_iff
    {before : Stat}
    (hNode : fs'.stat path' = some inode')
    (hUser : inode'.val.uid = "user")
    (hName :
      inode'.val.name.utf8ByteSize ≤ 65535 ∨
        inode'.val.name = stat.nameFor before.name)
    (hGid : inode'.val.gid = stat.gidFor before.gid) :
    (∃ after,
      fs'.ShowsStat hasher path' after ∧
        stat.ShownBy before after) ↔
      stat.ShownBy before (inodeToStat hasher path' inode') ∧
        (statRecord
          (inodeToStat hasher path' inode')).length ≤
          65535 := by
  constructor
  · rintro ⟨after, hShows, hShown⟩
    rcases hShows.decodes hNode with ⟨rest, hDecode⟩
    have hShort := yields_decodeStat _ _ _ hDecode
    have hOwner : inode'.val.uid.utf8ByteSize ≤ 65535 := by
      rw [hUser]
      decide
    have hFit :
        (inodeToStat hasher path' inode').StringsFit := by
      refine ⟨?_, hOwner, ?_, hOwner⟩
      · rcases hName with hSmall | hAsked
        · exact hSmall
        · have hLength := hShort.name
          rwa [hShown.name, ← hAsked] at hLength
      · have hLength := hShort.gid
        rwa [hShown.gid, ← hGid] at hLength
    rcases eq_of_decodeStat hFit hDecode with ⟨rfl, hFits⟩
    exact ⟨hShown, hFits⟩
  · rintro ⟨hShown, hFits⟩
    exact ⟨_, showsStat_of_fits hNode hFits, hShown⟩

/- The record of a restated node, in bytes. -/
theorem length_statRecord_iff
    {attrs : Attrs}
    (hName : inode'.val.name = stat.nameFor attrs.name)
    (hUid : inode'.val.uid = attrs.uid)
    (hGid : inode'.val.gid = stat.gidFor attrs.gid) :
    (statRecord
        (inodeToStat hasher path' inode')).length ≤ 65535 ↔
      stat.RecordFits attrs := by
  rw [length_statRecord, Stat.RecordFits]
  simp only [inodeToStat, hName, hUid, hGid]
  omega

/- Below the root a client is shown every change that fits. -/
theorem shows_of_applyStat_iff
    {attrs : Attrs}
    (hReach' : fs'.Reachable)
    (hNode' : fs'.stat path' = some inode')
    (hAttrs : Inode.applyStat stat inode.val = .ok attrs)
    (hVal :
      inode'.val =
        { attrs with
          name := stat.nameFor inode.val.name }) :
    (∃ after,
      fs'.ShowsStat hasher path' after ∧
        stat.ShownBy (inodeToStat hasher path inode)
          after) ↔
      stat.RecordFits inode.val := by
  have hKept := Inode.kept_of_applyStat hAttrs
  have hFields :
      inode'.val.name = stat.nameFor inode.val.name ∧
        inode'.val.uid = inode.val.uid ∧
        inode'.val.gid = stat.gidFor inode.val.gid := by
    rw [hVal]
    exact ⟨rfl, hKept.2.1, hKept.2.2⟩
  have hUser : inode'.val.uid = "user" :=
    hReach'.ofUser _ _ (RamFs.view_of_stat hNode')
  rw [shows_iff hNode' hUser (Or.inr hFields.1)
      hFields.2.2,
    length_statRecord_iff hFields.1 hFields.2.1
      hFields.2.2]
  exact and_iff_right (shownBy_of_applyStat hAttrs hVal)

/- At the root it is shown no new length and no new name. -/
theorem shows_of_applyRootStat_iff
    (hNode' : fs'.stat path' = some inode')
    (hVal :
      inode'.val = Inode.applyRootStat stat inode.val)
    (hUser : inode.val.uid = "user")
    (hName : inode.val.name = "/")
    (hData : inode.val.data = []) :
    (∃ after,
      fs'.ShowsStat hasher path' after ∧
        stat.ShownBy (inodeToStat hasher path inode)
          after) ↔
      ((stat.length = 0xffffffffffffffff ∨
          stat.length = 0) ∧
        (stat.name = "" ∨ stat.name = "/")) ∧
        stat.RecordFits inode.val := by
  have hFields :
      inode'.val.name = "/" ∧
        inode'.val.uid = inode.val.uid ∧
        inode'.val.gid = stat.gidFor inode.val.gid := by
    rw [hVal]
    exact ⟨hName, rfl, rfl⟩
  have hSmall : inode'.val.name.utf8ByteSize ≤ 65535 := by
    rw [hFields.1]
    decide
  rw [shows_iff hNode' (hFields.2.1.trans hUser)
      (Or.inl hSmall) hFields.2.2,
    shownBy_applyRootStat_iff hVal hName hData]
  refine and_congr_right (fun hAsked => ?_)
  have hNamed :
      inode'.val.name = stat.nameFor inode.val.name := by
    rw [hFields.1, hName, Stat.nameFor]
    rcases hAsked.2 with hEmpty | hSlash
    · rw [if_neg (not_not.mpr hEmpty)]
    · rw [hSlash, ite_self]
  exact length_statRecord_iff hNamed hFields.2.1 hFields.2.2

/-
  A stat whose changes are shown has taken effect when the
  branch has moved to where the client looks for it.
-/
theorem restated_of_moves
    {top : Attrs}
    (hNode : fs.stat path = some inode)
    (hNode' :
      fs'.stat (restatedPath path stat) = some inode')
    (hMoves :
      PathMap.Moves fs.view (components path)
        (components (restatedPath path stat)) top fs'.view)
    (hShown :
      ∃ after,
        fs'.ShowsStat hasher (restatedPath path stat)
            after ∧
          stat.ShownBy (inodeToStat hasher path inode)
            after)
    (hData :
      inode'.val.data.take
          (min inode.val.data.length
            inode'.val.data.length) =
        inode.val.data.take
          (min inode.val.data.length
            inode'.val.data.length)) :
    RamFs.Restated hasher fs fs' path stat := by
  rcases hShown with ⟨after, hShows, hShown⟩
  constructor
  · exact ⟨inode, inode', after, hNode, hNode', hShows,
      hShown, hData⟩
  · exact hMoves.below
  · exact hMoves.left
  · exact hMoves.others

end Planten

------------------------------------------------------------
-- Stats That Take Effect
------------------------------------------------------------

namespace Planten

variable {hasher : Hasher} {stat : Stat}
variable {fs fs' : RamFs} {path : String}
variable {inode : Inode}

/-
  A stat of a node below the root that takes effect asks for
  no name or for a plain one: under another one a walk goes
  up, or to a node with another name.
-/
theorem plain_of_restated
    {parent : List String}
    {filename : String}
    {attrs : Attrs}
    (hReach' : fs'.Reachable)
    (hPath : components path = parent ++ [filename])
    (hNode : fs.stat path = some inode)
    (hShort : stat.name.utf8ByteSize ≤ 65535)
    (hMoves :
      PathMap.Moves fs.view (parent ++ [filename])
        (parent ++ [stat.nameFor filename])
        { attrs with name := stat.nameFor filename }
        fs'.view)
    (hRestated : RamFs.Restated hasher fs fs' path stat) :
    stat.name = "" ∨ PlainName stat.name := by
  have hPlace := components_restatedPath path stat
  rw [hPath, List.dropLast_concat] at hPlace
  by_contra hAsked
  rw [not_or] at hAsked
  rcases hAsked with ⟨hNonempty, hPlain⟩
  rw [if_neg hNonempty] at hPlace
  rw [Stat.nameFor, if_pos hNonempty] at hMoves
  rcases walkComponents_of_not_plain parent hNonempty
    hPlain with hUp | ⟨k, hMem, hLast, hOther⟩
  · -- the branch would repeat itself from there on
    rcases hUp with ⟨up, hUp⟩
    have hTarget :
        parent ++ [stat.name] =
          walkComponents parent stat.name ++
            (up ++ [stat.name]) := by
      rw [← List.append_assoc, hUp]
    rw [hTarget] at hMoves
    apply hMoves.not_found_above fs.view_bounded
    · rw [← hPath, RamFs.view_of_stat hNode]
      rfl
    · exact List.append_ne_nil_of_right_ne_nil _
        (List.cons_ne_nil _ _)
    · rw [← hPlace, ← hPath]
      exact hRestated.below
  · -- the node found there is named by its key
    rcases hRestated.shown with
      ⟨_, inode', after, _, hNode', hShows, hShown, _⟩
    have hView := RamFs.view_of_stat hNode'
    have hKey : inode'.val.name = k := by
      apply hReach'.namedByKeys _ _ hView
      rw [hPlace]
      exact hLast
    rcases hShows.decodes hNode' with ⟨rest, hDecode⟩
    have hSmall : inode'.val.name.utf8ByteSize ≤ 65535 := by
      rw [hKey]
      exact (utf8ByteSize_of_mem_components hMem).trans
        hShort
    have hRead : after.name = inode'.val.name :=
      name_of_decodeStat hSmall hDecode
    have hShownName := hShown.name
    rw [Stat.nameFor, if_pos hNonempty] at hShownName
    exact hOther
      (hKey.symm.trans (hRead.symm.trans hShownName))

/-
  A stat of a node below the root takes effect just when it
  asks for no name or for a plain one, and for no longer
  record than can be read.
-/
theorem restated_iff_of_child
    {parent : List String}
    {filename : String}
    {attrs : Attrs}
    (hReach' : fs'.Reachable)
    (hPath : components path = parent ++ [filename])
    (hNode : fs.stat path = some inode)
    (hShort : stat.name.utf8ByteSize ≤ 65535)
    (hName : inode.val.name = filename)
    (hAttrs : Inode.applyStat stat inode.val = .ok attrs)
    (hMoves :
      PathMap.Moves fs.view (parent ++ [filename])
        (parent ++ [stat.nameFor filename])
        { attrs with name := stat.nameFor filename }
        fs'.view) :
    RamFs.Restated hasher fs fs' path stat ↔
      (stat.name = "" ∨ PlainName stat.name) ∧
        stat.RecordFits inode.val := by
  have hPlace := components_restatedPath path stat
  rw [hPath, List.dropLast_concat] at hPlace
  have hTarget
      (hAsked : stat.name = "" ∨ PlainName stat.name) :
      components (restatedPath path stat) =
        parent ++ [stat.nameFor filename] := by
    rw [hPlace]
    rcases hAsked with hEmpty | hPlain
    · rw [if_pos hEmpty, Stat.nameFor,
        if_neg (not_not.mpr hEmpty)]
    · rw [if_neg hPlain.nonempty, Stat.nameFor,
        if_pos hPlain.nonempty,
        walkComponents_of_plainName parent hPlain]
  have hFound
      (hAsked : stat.name = "" ∨ PlainName stat.name) :
      ∃ inode',
        fs'.stat (restatedPath path stat) = some inode' ∧
          inode'.val =
            { attrs with
              name := stat.nameFor inode.val.name } := by
    have hTop := hMoves.top
    rw [← hTarget hAsked] at hTop
    rw [hName]
    exact RamFs.stat_of_view hTop
  constructor
  · intro hRestated
    have hAsked :=
      plain_of_restated hReach' hPath hNode hShort hMoves
        hRestated
    rcases hFound hAsked with ⟨inode', hNode', hVal⟩
    rcases hRestated.shown with
      ⟨_, _, after, hNode₁, _, hShows, hShown, _⟩
    cases hNode.symm.trans hNode₁
    exact ⟨hAsked,
      (shows_of_applyStat_iff hReach' hNode' hAttrs
        hVal).mp ⟨after, hShows, hShown⟩⟩
  · rintro ⟨hAsked, hFits⟩
    rcases hFound hAsked with ⟨inode', hNode', hVal⟩
    rw [← hPath, ← hTarget hAsked] at hMoves
    apply restated_of_moves hNode hNode' hMoves
    · exact (shows_of_applyStat_iff hReach' hNode' hAttrs
        hVal).mpr hFits
    · rw [Inode.applyStat, bind_eq_ok_iff] at hAttrs
      rcases hAttrs with ⟨data, hData, hAttrs⟩
      cases hAttrs
      rw [hVal]
      exact take_of_statData hData

/-
  A stat of the root takes effect just when it asks for the
  length and the name that the root has, and for no longer
  record than can be read.
-/
theorem restated_iff_of_root
    (hReach : fs.Reachable)
    (hPath : components path = [])
    (hNode : fs.stat path = some inode)
    (hMoves :
      PathMap.Moves fs.view [] []
        (Inode.applyRootStat stat inode.val) fs'.view) :
    RamFs.Restated hasher fs fs' path stat ↔
      ((stat.length = 0xffffffffffffffff ∨
          stat.length = 0) ∧
        (stat.name = "" ∨ stat.name = "/")) ∧
        stat.RecordFits inode.val := by
  have hPlace := components_restatedPath path stat
  rw [hPath, List.dropLast_nil] at hPlace
  rcases hReach.plainRoot with ⟨attrs, hRoot, hName, hData⟩
  have hView := RamFs.view_of_stat hNode
  rw [hPath] at hView
  cases hView.symm.trans hRoot
  have hUser : inode.val.uid = "user" :=
    hReach.ofUser _ _ hView
  constructor
  · intro hRestated
    rcases hRestated.shown with
      ⟨_, inode', after, hNode₁, hNode', hShows, hShown, _⟩
    cases hNode.symm.trans hNode₁
    have hView' := RamFs.view_of_stat hNode'
    by_cases hHere :
        components (restatedPath path stat) = []
    · rw [hHere] at hView'
      have hVal :=
        Option.some.inj (hView'.symm.trans hMoves.top)
      exact (shows_of_applyRootStat_iff hNode' hVal hUser
        hName hData).mp ⟨after, hShows, hShown⟩
    · -- the tree would repeat itself below the node
      exfalso
      apply hMoves.not_found_below fs.view_bounded hHere
      · rw [List.nil_append, hView']
        rfl
      · have hBelow := hRestated.below
        rwa [hPath] at hBelow
  · intro hAsked
    have hHere : components (restatedPath path stat) = [] := by
      rw [hPlace]
      rcases hAsked.1.2 with hEmpty | hSlash
      · rw [if_pos hEmpty]
      · rw [hSlash]
        decide
    have hTop := hMoves.top
    rw [← hHere] at hTop
    rcases RamFs.stat_of_view hTop with
      ⟨inode', hNode', hVal⟩
    have hBranch :
        PathMap.Moves fs.view (components path)
          (components (restatedPath path stat))
          (Inode.applyRootStat stat inode.val) fs'.view := by
      rw [hPath, hHere]
      exact hMoves
    apply restated_of_moves hNode hNode' hBranch
    · exact (shows_of_applyRootStat_iff hNode' hVal hUser
        hName hData).mpr hAsked
    · rw [hVal]
      rfl

/- An answered stat moves the branch of the node. -/
theorem Change.moves
    {clock : Clock}
    {m m' : FlatFs}
    {fids : FidTable}
    {fid : UInt32}
    {state : FidState}
    {record rest : Bytes}
    {reply : Reply}
    (hNamed : m.NamedByKeys)
    (hFid : fids.lookup fid = some state)
    (hRecord : decodeStat.run record = .ok (stat, rest))
    (hType : reply.msgType = RWSTAT)
    (hChange :
      Change clock m fids (.twstat fid record) m' reply) :
    (components state.path = [] ∧
      ∃ attrs, m [] = some attrs ∧
        PathMap.Moves m [] []
          (Inode.applyRootStat stat attrs) m') ∨
    ∃ parent filename attrs attrs',
      components state.path = parent ++ [filename] ∧
        m (parent ++ [filename]) = some attrs ∧
        Inode.applyStat stat attrs = .ok attrs' ∧
        PathMap.Moves m (parent ++ [filename])
          (parent ++ [stat.nameFor filename])
          { attrs' with name := stat.nameFor filename }
          m' := by
  cases hChange with
  | same hQuiet =>
      exact (hQuiet.2.2 hType).elim
  | restatedRoot hFid' hRecord' hRoot hNode =>
      cases hFid.symm.trans hFid'
      cases hRecord.symm.trans hRecord'
      exact Or.inl
        ⟨hRoot, _, hNode, PathMap.moves_assign m [] _⟩
  | restated hFid' hRecord' hPath hNode hAttrs hKept =>
      rename_i parent filename
      cases hFid.symm.trans hFid'
      cases hRecord.symm.trans hRecord'
      right
      refine ⟨_, _, _, _, hPath, hNode, hAttrs, ?_⟩
      have hSame : stat.nameFor filename = filename := by
        unfold Stat.nameFor
        rcases hKept with hEmpty | hSame
        · rw [if_neg (not_not.mpr hEmpty)]
        · rw [hSame, ite_self]
      have hName :=
        (FlatFs.name_of_applyStat hAttrs).trans
          (hNamed _ _ hNode filename (by simp))
      rw [hSame, ← hName]
      exact PathMap.moves_assign m _ _
  | renamed hFid' hRecord' hPath hNode hAttrs hName hNew
      hFree =>
      cases hFid.symm.trans hFid'
      cases hRecord.symm.trans hRecord'
      right
      refine ⟨_, _, _, _, hPath, hNode, hAttrs, ?_⟩
      rw [Stat.nameFor, if_pos hName]
      exact PathMap.moves_relabel m _ _ _ _

namespace Server

/-
  On every tree a stat request that is answered has taken
  effect just when, at the root, it asks for no other length
  and no other name than the root has, below the root for no
  name or for a plain one, and in any case for no longer
  record than can be read.
-/
theorem wstat_takes_effect_iff
    (hasher : Hasher)
    {srv : Server}
    (hReach : srv.ramfs.Reachable)
    {conn : Nat}
    {fids : FidTable}
    {fid : UInt32}
    {state : FidState}
    {record rest : Bytes}
    {stat : Stat}
    {tag : UInt16}
    {body : Bytes}
    {clock : Clock}
    (hConn : srv.conns conn = some fids)
    (hFid : fids.lookup fid = some state)
    (hDecode :
      Request.decode TWSTAT body = .ok (.twstat fid record))
    (hRecord : decodeStat.run record = .ok (stat, rest))
    (hReply :
      srv.replyType hasher
          (.request conn TWSTAT tag body clock) =
        some RWSTAT) :
    RamFs.Restated hasher srv.ramfs
        (srv.step hasher
          (.request conn TWSTAT tag body clock)).ramfs
        state.path stat ↔
      (components state.path = [] →
        (stat.length = 0xffffffffffffffff ∨
          stat.length = 0) ∧
        (stat.name = "" ∨ stat.name = "/")) ∧
      (components state.path ≠ [] →
        stat.name = "" ∨ PlainName stat.name) ∧
      ∀ attrs,
        srv.ramfs.view (components state.path) =
            some attrs →
          stat.RecordFits attrs := by
  have hShort := (yields_decodeStat _ _ _ hRecord).name
  have hReach' :=
    reachable_step hasher srv
      (.request conn TWSTAT tag body clock) hReach
  rcases effect_of_replyType hConn hDecode hReply with
    ⟨fids', reply, hType, hEffect, _⟩
  generalize
    (srv.step hasher
      (.request conn TWSTAT tag body clock)).ramfs = fs'
    at hReach' hEffect ⊢
  rcases hEffect.change.moves hReach.namedByKeys hFid hRecord
    hType with
    ⟨hPath, attrs, hRoot, hMoves⟩ |
      ⟨parent, filename, attrs, attrs', hPath, hChild,
        hAttrs, hMoves⟩
  · rw [← hPath] at hRoot
    rcases RamFs.stat_of_view hRoot with
      ⟨inode, hNode, rfl⟩
    rw [restated_iff_of_root hReach hPath hNode hMoves]
    constructor
    · rintro ⟨hAsked, hFits⟩
      refine ⟨fun _ => hAsked,
        fun hBelow => (hBelow hPath).elim, ?_⟩
      intro attrs hHere
      cases hRoot.symm.trans hHere
      exact hFits
    · rintro ⟨hAsked, _, hFits⟩
      exact ⟨hAsked hPath, hFits _ hRoot⟩
  · have hName :=
      hReach.namedByKeys _ _ hChild filename (by simp)
    rw [← hPath] at hChild
    rcases RamFs.stat_of_view hChild with
      ⟨inode, hNode, rfl⟩
    have hBelow : components state.path ≠ [] := by
      rw [hPath]
      exact List.append_ne_nil_of_right_ne_nil _
        (List.cons_ne_nil _ _)
    rw [restated_iff_of_child hReach' hPath hNode hShort
      hName hAttrs hMoves]
    constructor
    · rintro ⟨hAsked, hFits⟩
      refine ⟨fun hNil => (hBelow hNil).elim,
        fun _ => hAsked, ?_⟩
      intro attrs₁ hHere
      cases hChild.symm.trans hHere
      exact hFits
    · rintro ⟨_, hAsked, hFits⟩
      exact ⟨hAsked hBelow, hFits _ hChild⟩

/- The file `a`, renamed to `b`, is found there. -/
theorem wstat_takes_effect_of_openedFile :
    RamFs.Restated (fun _ _ => 0)
      (Run.final (step (fun _ _ => 0))
        (start (RamFs.fresh 0)) openedFile).ramfs
      ((Run.final (step (fun _ _ => 0))
          (start (RamFs.fresh 0)) openedFile).step
        (fun _ _ => 0)
        (.request 0 TWSTAT 0
          (encodeWstatBody 1 (renameStat "b"))
          (fun _ => 0))).ramfs
      "/a" (renameStat "b") := by
  have hReach :=
    reachable_final (fun _ _ => 0)
      (.new (RamFs.new_eq_fresh (le_refl 0))) openedFile
  have hRecord :=
    (@decodes_decodeStat (renameStat "b")
      (by decide +kernel)).run_nil
  have hIff :=
    @wstat_takes_effect_iff (fun _ _ => 0) _ hReach 0
      [(0, .new "/" ⟨0x80, 0, 0⟩),
        (1, .new "/a" ⟨0, 0, 0⟩)] 1
      (.new "/a" ⟨0, 0, 0⟩) _ [] (renameStat "b") 0 _
      (fun _ => 0) (by decide +kernel) (by decide +kernel)
      (Request.decode_wstat 1 (renameStat "b")) hRecord
      (by decide +kernel)
  apply hIff.mpr
  refine ⟨?_, fun _ => Or.inr (by decide), ?_⟩
  · intro hNil
    exact absurd hNil (by decide)
  · intro attrs hHere
    have hFile :
        (Run.final (step (fun _ _ => 0))
          (start (RamFs.fresh 0)) openedFile).ramfs.view
            (components "/a") =
          some (freshAttrs "a" fileMode 0) := by
      decide +kernel
    cases hFile.symm.trans hHere
    unfold Stat.RecordFits
    decide

/-
  A stat that names the root `b` is answered, and no walk
  finds a node there.
-/
theorem not_restated_of_rootName :
    ¬ ∀ (hasher : Hasher) (fs : RamFs) (events : List Event)
        (conn : Nat) (fid : UInt32) (path : String)
        (stat : Stat) (tag : UInt16) (clock : Clock),
      fs.Reachable →
        (Run.final (step hasher) (start fs) events).fidPath
            conn fid = some path →
          (Run.final (step hasher) (start fs)
              events).replyType hasher
                (.request conn TWSTAT tag
                  (encodeWstatBody fid stat) clock) =
            some RWSTAT →
          RamFs.Restated hasher
            (Run.final (step hasher) (start fs)
              events).ramfs
            ((Run.final (step hasher) (start fs)
                events).step hasher
              (.request conn TWSTAT tag
                (encodeWstatBody fid stat) clock)).ramfs
            path stat := by
  intro hAlways
  have hRestated :=
    hAlways (fun _ _ => 0) (RamFs.fresh 0) attached 0 0 "/"
      (renameStat "b") 0 (fun _ => 0)
      (.new (RamFs.new_eq_fresh (le_refl 0)))
      (by decide +kernel) (by decide +kernel)
  rcases hRestated.shown with
    ⟨_, inode', _, _, hNode', _⟩
  have hView := RamFs.view_of_stat hNode'
  have hMissing :
      ((Run.final (step (fun _ _ => 0))
          (start (RamFs.fresh 0)) attached).step
        (fun _ _ => 0)
        (.request 0 TWSTAT 0
          (encodeWstatBody 0 (renameStat "b"))
          (fun _ => 0))).ramfs.view
        (components (restatedPath "/" (renameStat "b"))) =
        none := by
    decide +kernel
  cases hMissing.symm.trans hView

end Server

end Planten
