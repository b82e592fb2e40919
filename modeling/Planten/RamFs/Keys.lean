import Planten.RamFs.Runs

/-
  Invariants of the keys of a server.

  New keys come from create and rename requests only.  When
  these have a property, all keys of the tree and all
  components of the paths of fids keep it: a fid is bound to
  a path at which there is a node.

  Key definitions include:
    * `Request.AddsKeys`
    * `Server.KeysHold`

  Key theorems include:
    * `Effect.path_cases`
    * `Server.KeysHold.step`
    * `Server.KeysHold.final`
-/

------------------------------------------------------------
-- Bound Paths
------------------------------------------------------------

namespace Planten

variable {hasher : Hasher} {clock : Clock}
variable {fs fs' : RamFs} {fids fids' : FidTable}
variable {req : Request} {reply : Reply}

/- A walk of at least one step ends at a node. -/
theorem view_of_walkNames
    {n : Nat}
    {cursor : Bytes}
    {path path' : String}
    {qids qids' : List Qid}
    (hNames :
      walkNames hasher fs n cursor path qids =
        .ok (.ok (path', qids'))) :
    path' = path ∨
      (fs.view (components path')).isSome := by
  induction n generalizing cursor path qids with
  | zero =>
      cases hNames
      exact Or.inl rfl
  | succ n ih =>
      rw [walkNames, bind_eq_ok_iff] at hNames
      rcases hNames with ⟨⟨name, rest⟩, _, hNames⟩
      simp only at hNames
      split at hNames
      · split at hNames
        · rename_i inode hStat
          rcases ih hNames with rfl | hSome
          · rw [RamFs.view_of_stat hStat]
            exact Or.inr rfl
          · exact Or.inr hSome
        · cases hNames
      · cases hNames

/-
  The path of a fid after a request is the path of a fid
  before it, or there is a node at it.
-/
theorem Effect.path_cases
    {fid : UInt32}
    {state' : FidState}
    (hEffect : Effect hasher clock fs fids req fs' fids' reply)
    (hLookup : fids'.lookup fid = some state') :
    (∃ fid₀ state,
      fids.lookup fid₀ = some state ∧
        state.path = state'.path) ∨
      (fs.view (components state'.path)).isSome := by
  have hInsert
      {fid₀ : UInt32}
      {state₀ : FidState}
      (hLookup :
        (KeyMap.insert fid₀ state₀ fids).lookup fid =
          some state') :
      fids.lookup fid = some state' ∨ state₀ = state' := by
    rw [KeyMap.lookup_insert] at hLookup
    split at hLookup
    · exact Or.inr (Option.some.inj hLookup)
    · exact Or.inl hLookup
  have hErase
      {fid₀ : UInt32}
      (hLookup :
        (KeyMap.erase fid₀ fids).lookup fid =
          some state') :
      fids.lookup fid = some state' := by
    rw [KeyMap.lookup_erase] at hLookup
    split at hLookup
    · cases hLookup
    · exact hLookup
  cases hEffect with
  | attach =>
      rcases hInsert hLookup with hOld | rfl
      · exact Or.inl ⟨fid, state', hOld, rfl⟩
      · right
        change (fs.view (components "/")).isSome
        rw [components_slash]
        rfl
  | walk hNames hTarget =>
      rename_i source newfid nwname names path qids newQid
      rcases hInsert hLookup with hOld | rfl
      · exact Or.inl ⟨fid, state', hOld, rfl⟩
      · rcases view_of_walkNames hNames with hBase | hSome
        · change
            _ ∨ (fs.view (components path)).isSome
          cases hFid : fids.lookup source with
          | some state =>
              have hPath : path = state.path := by
                rw [hBase, walkBaseState, hFid]
              exact Or.inl
                ⟨source, state, hFid, hPath.symm⟩
          | none =>
              have hPath : path = "/" := by
                rw [hBase, walkBaseState, hFid]
                rfl
              rw [hPath, components_slash]
              exact Or.inr rfl
        · exact Or.inr hSome
  | opened hFid hStat =>
      rcases hInsert hLookup with hOld | rfl
      · exact Or.inl ⟨fid, state', hOld, rfl⟩
      · exact Or.inl ⟨_, _, hFid, rfl⟩
  | clone hFid =>
      rcases hInsert hLookup with hOld | rfl
      · exact Or.inl ⟨fid, state', hOld, rfl⟩
      · exact Or.inl ⟨_, _, hFid, rfl⟩
  | clunk | remove hFid hOp | removeFailed hFid hOp =>
      exact Or.inl ⟨fid, state', hErase hLookup, rfl⟩
  | version | auth | flush
  | create hFid hStep hFresh hOp hStat
  | read hFid hMode hAllowed hData hWindow
  | write hFid hMode hAllowed hOp | stat hFid hStat
  | wstat hFid hRecord hOp | refused hRefusal =>
      exact Or.inl ⟨fid, state', hLookup, rfl⟩

end Planten

------------------------------------------------------------
-- Keys
------------------------------------------------------------

namespace Planten

/- The components a step adds come from its name. -/
theorem mem_walkComponents
    {base : List String}
    {name c : String}
    (hMem : c ∈ walkComponents base name) :
    c ∈ base ∨ c ∈ walkComponents [] name := by
  unfold walkComponents at hMem ⊢
  split_ifs at hMem ⊢ with hDot hDots hSlash
  · exact Or.inl hMem
  · exact Or.inl (List.mem_of_mem_dropLast hMem)
  · exact Or.inr hMem
  · rw [List.nil_append]
    exact List.mem_append.mp hMem

/-
  The keys a request would add to the map have a property:
  the components of the name of a create request for a
  missing path, while the clock is past the epoch, and the
  new name of an entry when it is free.
-/
inductive Request.AddsKeys
    (K : String → Prop)
    (clock : Clock)
    (m : FlatFs)
    (fids : FidTable) : Request → Prop where
| tcreate
    {fid : UInt32} {name : String} {perm : UInt32}
    {mode : UInt8}
    (hKeys :
      ∀ state newPath,
        fids.lookup fid = some state →
          resolveStep state.path name = some newPath →
            m (components newPath) = none →
              ¬ m.CreatesBeforeEpoch clock
                (components newPath) →
                ∀ c ∈ walkComponents [] name, K c) :
    AddsKeys K clock m fids (.tcreate fid name perm mode)
| twstat
    {fid : UInt32} {record : Bytes}
    (hKey :
      ∀ state stat rest parent filename attrs,
        fids.lookup fid = some state →
          decodeStat.run record = .ok (stat, rest) →
            components state.path = parent ++ [filename] →
              m (parent ++ [filename]) = some attrs →
                stat.LengthFits attrs.data →
                  stat.name ≠ "" → stat.name ≠ filename →
                    m (parent ++ [stat.name]) = none →
                      K stat.name) :
    AddsKeys K clock m fids (.twstat fid record)
| other
    {req : Request}
    (hCreate :
      ∀ fid name perm mode, req ≠ .tcreate fid name perm mode)
    (hWstat : ∀ fid record, req ≠ .twstat fid record) :
    AddsKeys K clock m fids req

namespace Server

/- Every key, and every component of a fid, has a property. -/
structure KeysHold
    (K : String → Prop)
    (srv : Server) : Prop where
  view :
    srv.ramfs.view.Forall (fun q _ => ∀ c ∈ q, K c)
  fids :
    ∀ conn fids fid state,
      srv.conns conn = some fids →
        fids.lookup fid = some state →
          ∀ c ∈ components state.path, K c

variable {hasher : Hasher} {K : String → Prop}

/- The keys on the way to a created node. -/
theorem keys_of_created
    {clock : Clock}
    {m : FlatFs}
    {fids : FidTable}
    {fid : UInt32}
    {name newPath : String}
    {perm : UInt32}
    {mode : UInt8}
    {state : FidState}
    (hFids :
      ∀ fid state,
        fids.lookup fid = some state →
          ∀ c ∈ components state.path, K c)
    (hAdds :
      (Request.tcreate fid name perm mode).AddsKeys K clock m
        fids)
    (hFid : fids.lookup fid = some state)
    (hStep : resolveStep state.path name = some newPath)
    (hFresh : m (components newPath) = none)
    (hEpoch :
      ¬ m.CreatesBeforeEpoch clock (components newPath)) :
    ∀ c ∈ components newPath, K c := by
  intro c hMem
  cases hAdds with
  | other hCreate hWstat =>
      exact (hCreate _ _ _ _ rfl).elim
  | tcreate hKeys =>
      rw [components_resolveStep hStep] at hMem
      rcases mem_walkComponents hMem with hOld | hAdded
      · exact hFids _ _ hFid c hOld
      · exact hKeys _ _ hFid hStep hFresh hEpoch c hAdded

theorem keys_of_change
    {clock : Clock}
    {m m' : FlatFs}
    {fids : FidTable}
    {req : Request}
    {reply : Reply}
    (hView : m.Forall (fun q _ => ∀ c ∈ q, K c))
    (hFids :
      ∀ fid state,
        fids.lookup fid = some state →
          ∀ c ∈ components state.path, K c)
    (hAdds : req.AddsKeys K clock m fids)
    (hChange : Change clock m fids req m' reply) :
    m'.Forall (fun q _ => ∀ c ∈ q, K c) := by
  cases hChange with
  | same hQuiet =>
      exact hView
  | created hFid hStep hFresh hEpoch =>
      apply PathMap.Forall.fill hView
      intro q hPrefix _ c hMem
      exact keys_of_created hFids hAdds hFid hStep hFresh
        hEpoch c (hPrefix.subset hMem)
  | written hFid hMode hAllowed hNonempty hNode hData =>
      exact PathMap.Forall.assign hView (hView _ _ hNode)
  | restatedRoot hFid hRecord hRoot hNode =>
      exact PathMap.Forall.assign hView (hView _ _ hNode)
  | restated hFid hRecord hPath hNode hAttrs hKept =>
      exact PathMap.Forall.assign hView (hView _ _ hNode)
  | renamed hFid hRecord hPath hNode hAttrs hName hNew
      hFree =>
      cases hAdds with
      | other hCreate hWstat =>
          exact (hWstat _ _ rfl).elim
      | twstat hKey =>
          have hNewKey :=
            hKey _ _ _ _ _ _ hFid hRecord hPath hNode
              (Inode.length_of_applyStat hAttrs).2 hName
              hNew hFree
          have hOld := hView _ _ hNode
          apply PathMap.Forall.relabel hView
          · intro c hMem
            rcases List.mem_append.mp hMem with
              hParent | hLast
            · exact hOld c (List.mem_append_left _ hParent)
            · rw [List.mem_singleton.mp hLast]
              exact hNewKey
          · intro q w _ hBelow c hMem
            rcases List.mem_append.mp hMem with hTop | hRest
            · rcases List.mem_append.mp hTop with
                hParent | hLast
              · exact hOld c
                  (List.mem_append_left _ hParent)
              · rw [List.mem_singleton.mp hLast]
                exact hNewKey
            · exact hBelow c
                (List.mem_append_right _ hRest)
  | removed hFid hNonempty hNode =>
      exact PathMap.Forall.prune hView _

/- An event that adds such keys only keeps the property. -/
theorem KeysHold.step
    {srv : Server}
    {event : Event}
    (hHold : srv.KeysHold K)
    (hAdds :
      ∀ clock fids req,
        srv.Asks event clock fids req →
          req.AddsKeys K clock srv.ramfs.view fids) :
    (srv.step hasher event).KeysHold K := by
  constructor
  · rcases change_of_step hasher srv event with
      ⟨hSame, _⟩ |
        ⟨clock, fids, req, reply, hAsks, _, hChange⟩
    · rw [hSame]
      exact hHold.view
    · have hConn := hAsks
      rcases hConn with ⟨conn, _, _, _, _, hConn, _⟩
      exact keys_of_change hHold.view
        (fun fid state => hHold.fids conn fids fid state hConn)
        (hAdds _ _ _ hAsks) hChange
  · intro conn fids' fid state' hConn' hFid' c hMem
    rcases conns_of_step hConn' with
      hSame | rfl |
        ⟨_, _, _, _, fids, req, reply, _, hConn, _, _,
          hEffect⟩
    · exact hHold.fids _ _ _ _ hSame hFid' c hMem
    · cases hFid'
    · rcases hEffect.path_cases hFid' with
        ⟨fid₀, state, hFid, hPath⟩ | hSome
      · rw [← hPath] at hMem
        exact hHold.fids _ _ _ _ hConn hFid c hMem
      · rcases Option.isSome_iff_exists.mp hSome with
          ⟨attrs, hNode⟩
        exact hHold.view _ _ hNode c hMem

/- A run of such events keeps it. -/
theorem KeysHold.final
    {srv : Server}
    {events : List Event}
    (hHold : srv.KeysHold K)
    (hAdds :
      Run.Always (Server.step hasher)
        (fun srv event =>
          ∀ clock fids req,
            srv.Asks event clock fids req →
              req.AddsKeys K clock srv.ramfs.view fids)
        srv events) :
    (Run.final (Server.step hasher) srv events).KeysHold K :=
  Run.invariant_of_always _
    (fun _ _ hHere hMeets => hHere.step hMeets) hHold hAdds

/- A server on an empty file system has no keys. -/
theorem keysHold_start
    {now : SystemTime}
    {fs : RamFs}
    (hNew : RamFs.new now = .ok fs) :
    (start fs).KeysHold K := by
  constructor
  · change fs.view.Forall _
    rw [RamFs.view_of_new hNew]
    apply PathMap.Forall.single
    intro c hMem
    cases hMem
  · intro conn fids fid state hConn
    cases hConn

end Server

end Planten
