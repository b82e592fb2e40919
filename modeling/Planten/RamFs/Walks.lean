import Planten.RamFs.Replies
import Planten.RamFs.History

/-
  Walks navigate the tree.

  A walk step works on path strings.  On components it is
  navigation: a name goes down, two dots go up and stop at
  the root, and a slash goes to the root.  A walk that starts
  at a fid follows the trail of its names: it is answered
  when there is a node at every point of the trail, with the
  qids of these nodes, and binds the new fid to the last one.

  Key definitions include:
    * `RootedPath`
    * `walkTrail`, `walkEnd`
    * `trailPaths`
    * `Server.FollowsTrail`

  Key theorems include:
    * `rootedPath_of_resolveStep`
    * `components_trailPaths`
    * `walkNames_spec`
    * `Server.rootedFids_final`
    * `Server.walk_refines`
-/

------------------------------------------------------------
-- Rooted Paths
------------------------------------------------------------

namespace Planten

/- A path string that starts with a slash. -/
def RootedPath (path : String) : Prop :=
  path.toList.head? = some '/'

instance (path : String) : Decidable (RootedPath path) :=
  inferInstanceAs (Decidable (_ = _))

theorem rootedPath_slash : RootedPath "/" := by
  decide

theorem rootedPath_append
    {base : String}
    (hBase : RootedPath base)
    (s : String) :
    RootedPath (base ++ s) := by
  unfold RootedPath at hBase ⊢
  rw [String.toList_append, List.head?_append, hBase]
  rfl

/- A beginning of a rooted path is rooted, or empty. -/
theorem rootedPath_of_prefix
    {base : String}
    {l : List Char}
    (hBase : RootedPath base)
    (hPrefix : l <+: base.toList)
    (hNonempty : l ≠ []) :
    RootedPath (String.ofList l) := by
  rcases hPrefix with ⟨tail, hTail⟩
  cases l with
  | nil =>
      exact (hNonempty rfl).elim
  | cons c l =>
      unfold RootedPath at hBase ⊢
      rw [← hTail] at hBase
      rw [String.toList_ofList]
      exact hBase

theorem rootedPath_parentPath
    {base : String}
    (hBase : RootedPath base) :
    RootedPath (parentPath base) := by
  unfold parentPath
  simp only
  generalize hTrimmed :
    base.toList.rdropWhile (fun c => c = '/') = trimmed
  have hPrefix : trimmed <+: base.toList := by
    rw [← hTrimmed]
    exact List.rdropWhile_prefix _ _
  cases hFind : rfindSlash trimmed with
  | none =>
      exact rootedPath_slash
  | some idx =>
      cases idx with
      | zero =>
          exact rootedPath_slash
      | succ idx =>
          have hSplit := (rfindSlash_eq_some hFind).1
          apply rootedPath_of_prefix hBase
          · exact (List.take_prefix _ _).trans hPrefix
          · -- the slash that was found is not the first
            intro hNil
            have hEmpty : trimmed = [] := by
              cases hCases : trimmed with
              | nil =>
                  rfl
              | cons c l =>
                  rw [hCases] at hNil
                  cases hNil
            rw [hEmpty] at hFind
            cases hFind

/- A walk step keeps a path rooted. -/
theorem rootedPath_of_resolveStep
    {base component path : String}
    (hBase : RootedPath base)
    (hStep : resolveStep base component = some path) :
    RootedPath path := by
  unfold resolveStep at hStep
  split_ifs at hStep with hEmpty hDot hSlash hDots hRoot hTop
  · cases hStep
    exact hBase
  · cases hStep
    exact rootedPath_slash
  · cases hStep
    exact rootedPath_slash
  · cases hStep
    exact rootedPath_parentPath hBase
  · cases hStep
    exact rootedPath_append rootedPath_slash component
  · cases hStep
    exact rootedPath_append
      (rootedPath_append hBase "/") component

end Planten

------------------------------------------------------------
-- Trails
------------------------------------------------------------

namespace Planten

/- The points that steps along names go through. -/
def walkTrail
    (base : List String) :
    List String → List (List String)
| [] => []
| name :: names =>
    walkComponents base name ::
      walkTrail (walkComponents base name) names

/- The point that steps along names end at. -/
def walkEnd
    (base : List String)
    (names : List String) : List String :=
  names.foldl walkComponents base

/- The path strings that steps along names go through. -/
def trailPaths
    (base : String) :
    List String → List String
| [] => []
| name :: names =>
    match resolveStep base name with
    | none => []
    | some next => next :: trailPaths next names

/- The path string that steps along names end at. -/
def trailEndPath
    (base : String)
    (names : List String) : String :=
  (trailPaths base names).getLast?.getD base

theorem length_walkTrail
    (base names : List String) :
    (walkTrail base names).length = names.length := by
  induction names generalizing base with
  | nil =>
      rfl
  | cons name names ih =>
      exact congrArg Nat.succ (ih _)

/- A step with a name that is not empty goes somewhere. -/
theorem resolveStep_of_nonempty
    (base : String)
    {name : String}
    (hName : name ≠ "") :
    ∃ path,
      resolveStep base name = some path ∧
        components path =
          walkComponents (components base) name := by
  cases hStep : resolveStep base name with
  | none =>
      exact absurd
        ((resolveStep_eq_none_iff base name).mp hStep) hName
  | some path =>
      exact ⟨path, rfl, components_resolveStep hStep⟩

theorem trailPaths_cons
    {base name next : String}
    (hStep : resolveStep base name = some next)
    (names : List String) :
    trailPaths base (name :: names) =
      next :: trailPaths next names := by
  rw [trailPaths, hStep]

theorem trailEndPath_cons
    {base name next : String}
    (hStep : resolveStep base name = some next)
    (names : List String) :
    trailEndPath base (name :: names) =
      trailEndPath next names := by
  rw [trailEndPath, trailEndPath, trailPaths_cons hStep,
    List.getLast?_cons]
  rfl

/- On components the path strings are the trail. -/
theorem components_trailPaths
    {names : List String}
    (hNames : ∀ name ∈ names, name ≠ "")
    (base : String) :
    (trailPaths base names).map components =
      walkTrail (components base) names := by
  induction names generalizing base with
  | nil =>
      rfl
  | cons name names ih =>
      rcases resolveStep_of_nonempty base
        (hNames name (List.mem_cons_self ..)) with
        ⟨next, hStep, hNext⟩
      have hTail :=
        ih (fun other hMem =>
          hNames other (List.mem_cons_of_mem _ hMem)) next
      rw [trailPaths_cons hStep, List.map_cons, hTail, hNext,
        walkTrail]

theorem components_trailEndPath
    {names : List String}
    (hNames : ∀ name ∈ names, name ≠ "")
    (base : String) :
    components (trailEndPath base names) =
      walkEnd (components base) names := by
  induction names generalizing base with
  | nil =>
      rfl
  | cons name names ih =>
      rcases resolveStep_of_nonempty base
        (hNames name (List.mem_cons_self ..)) with
        ⟨next, hStep, hNext⟩
      rw [trailEndPath_cons hStep, ih
        (fun other hMem =>
          hNames other (List.mem_cons_of_mem _ hMem)), hNext]
      rfl

end Planten

------------------------------------------------------------
-- Walks along Trails
------------------------------------------------------------

namespace Planten

variable {hasher : Hasher} {fs : RamFs}

/- The qid of the node at a path, if there is one. -/
def nodeQid?
    (hasher : Hasher)
    (fs : RamFs)
    (path : String) : Option Qid :=
  (fs.stat path).map (qidFromInode hasher path)

theorem isSome_view_of_nodeQid?
    {path : String}
    {qid : Qid}
    (hQid : nodeQid? hasher fs path = some qid) :
    (fs.view (components path)).isSome := by
  rw [Option.isSome_iff_ne_none]
  intro hNone
  rw [nodeQid?, (fs.stat_eq_none_iff path).mpr hNone] at hQid
  cases hQid

/-
  A walk along names that can be read finds a node at every
  path, and collects their qids, or it stops with an error.
-/
theorem walkNames_spec
    (hasher : Hasher)
    {n : Nat}
    {cursor rest : Bytes}
    {names : List String}
    (hRead :
      (Decoder.many readString n).run cursor =
        .ok (names, rest))
    (hNames : ∀ name ∈ names, name ≠ "")
    (base : String)
    (qids : List Qid) :
    (∃ found,
      (trailPaths base names).map (nodeQid? hasher fs) =
          found.map some ∧
        walkNames hasher fs n cursor base qids =
          .ok (.ok
            (trailEndPath base names, qids ++ found))) ∨
      (∃ path ∈ trailPaths base names,
        fs.stat path = none) ∧
      ∃ message,
        walkNames hasher fs n cursor base qids =
          .ok (.error message) := by
  induction n generalizing cursor names base qids with
  | zero =>
      cases hRead
      left
      refine ⟨[], rfl, ?_⟩
      rw [List.append_nil]
      rfl
  | succ n ih =>
      rcases Decoder.run_bind_ok hRead with
        ⟨name, mid, hName, hRead⟩
      rcases Decoder.run_bind_ok hRead with
        ⟨tail, rest', hTail, hRead⟩
      cases hRead
      rcases resolveStep_of_nonempty base
        (hNames name (List.mem_cons_self ..)) with
        ⟨next, hStep, _⟩
      rw [trailPaths_cons hStep, trailEndPath_cons hStep,
        walkNames, hName]
      simp only [bind, Except.bind, hStep]
      cases hStat : fs.stat next with
      | none =>
          right
          exact ⟨⟨next, List.mem_cons_self .., hStat⟩, _,
            rfl⟩
      | some inode =>
          simp only
          have hQid :
              nodeQid? hasher fs next =
                some (qidFromInode hasher next inode) := by
            rw [nodeQid?, hStat]
            rfl
          rcases ih hTail
            (fun other hMem =>
              hNames other (List.mem_cons_of_mem _ hMem))
            next
            (qids ++ [qidFromInode hasher next inode]) with
            ⟨found, hFound, hWalk⟩ |
              ⟨⟨path, hMem, hNone⟩, hError⟩
          · left
            refine ⟨qidFromInode hasher next inode :: found,
              ?_, ?_⟩
            · rw [List.map_cons, List.map_cons, hQid, hFound]
            · rw [hWalk, List.append_assoc,
                List.singleton_append]
          · right
            exact ⟨⟨path, List.mem_cons_of_mem _ hMem,
              hNone⟩, hError⟩

/- A walk ends with the qid of the node it ends at. -/
theorem walkTarget_eq
    {base : String}
    {names : List String}
    {found : List Qid}
    (hFound :
      (trailPaths base names).map (nodeQid? hasher fs) =
        found.map some) :
    walkTarget hasher fs (trailEndPath base names) found =
      match nodeQid? hasher fs (trailEndPath base names) with
      | some qid => .ok qid
      | none => .error "walk failed: target missing" := by
  have hLast := congrArg List.getLast? hFound
  rw [List.getLast?_map, List.getLast?_map] at hLast
  unfold walkTarget
  cases hEnds : found.getLast? with
  | none =>
      simp only [nodeQid?]
      cases fs.stat (trailEndPath base names) with
      | none =>
          rfl
      | some inode =>
          rfl
  | some last =>
      rw [hEnds] at hLast
      cases hPath : (trailPaths base names).getLast? with
      | none =>
          rw [hPath] at hLast
          cases hLast
      | some path =>
          rw [hPath] at hLast
          have hQid :
              nodeQid? hasher fs path = some last :=
            Option.some.inj hLast
          rw [trailEndPath, hPath, Option.getD_some, hQid]

end Planten

------------------------------------------------------------
-- Rooted Fids
------------------------------------------------------------

namespace Planten

variable {hasher : Hasher} {clock : Clock}
variable {fs fs' : RamFs} {fids fids' : FidTable}
variable {req : Request} {reply : Reply}

/- Every path of a table is rooted. -/
def FidTable.Rooted (fids : FidTable) : Prop :=
  ∀ fid state,
    fids.lookup fid = some state → RootedPath state.path

theorem rootedPath_of_walkNames
    {n : Nat}
    {cursor : Bytes}
    {path path' : String}
    {qids qids' : List Qid}
    (hPath : RootedPath path)
    (hNames :
      walkNames hasher fs n cursor path qids =
        .ok (.ok (path', qids'))) :
    RootedPath path' := by
  induction n generalizing cursor path qids with
  | zero =>
      cases hNames
      exact hPath
  | succ n ih =>
      rw [walkNames, bind_eq_ok_iff] at hNames
      rcases hNames with ⟨⟨name, rest⟩, _, hNames⟩
      simp only at hNames
      split at hNames
      · rename_i next hStep
        split at hNames
        · exact ih (rootedPath_of_resolveStep hPath hStep)
            hNames
        · cases hNames
      · cases hNames

namespace FidTable

theorem Rooted.insert
    {fid : UInt32}
    {state : FidState}
    (hRooted : fids.Rooted)
    (hPath : RootedPath state.path) :
    Rooted (KeyMap.insert fid state fids) := by
  intro fid' state' hLookup
  rw [KeyMap.lookup_insert] at hLookup
  split at hLookup
  · cases hLookup
    exact hPath
  · exact hRooted fid' state' hLookup

theorem Rooted.erase
    {fid : UInt32}
    (hRooted : fids.Rooted) :
    Rooted (KeyMap.erase fid fids) := by
  intro fid' state' hLookup
  exact hRooted fid' state' (erase_keeps hLookup)

end FidTable

/- An answered request keeps the paths rooted. -/
theorem Effect.rooted
    (hEffect : Effect hasher clock fs fids req fs' fids' reply)
    (hRooted : fids.Rooted) :
    fids'.Rooted := by
  cases hEffect with
  | attach =>
      exact hRooted.insert rootedPath_slash
  | walk hNames hTarget =>
      rename_i source newfid nwname names path qids newQid
      apply hRooted.insert
      refine rootedPath_of_walkNames ?_ hNames
      cases hFid : fids.lookup source with
      | some state =>
          rw [walkBaseState, hFid]
          exact hRooted source state hFid
      | none =>
          rw [walkBaseState, hFid]
          exact rootedPath_slash
  | opened hFid hStat | clone hFid =>
      have hPath := hRooted _ _ hFid
      exact hRooted.insert hPath
  | clunk | remove hFid hOp | removeFailed hFid hOp =>
      exact hRooted.erase
  | version | auth | flush
  | create hFid hStep hFresh hOp hStat
  | read hFid hMode hAllowed hData hWindow
  | write hFid hMode hAllowed hOp | stat hFid hStat
  | wstat hFid hRecord hOp | refused hRefusal =>
      exact hRooted

namespace Server

/- Every path of every connection is rooted. -/
def RootedFids (srv : Server) : Prop :=
  ∀ conn fids,
    srv.conns conn = some fids → fids.Rooted

theorem RootedFids.step
    {srv : Server}
    (hRooted : srv.RootedFids)
    (hasher : Hasher)
    (event : Event) :
    (srv.step hasher event).RootedFids := by
  intro conn fids' hConn'
  rcases conns_of_step hConn' with
    hSame | rfl |
      ⟨_, _, _, _, fids, req, reply, _, hConn, _, _, hEffect⟩
  · exact hRooted conn fids' hSame
  · intro fid state hLookup
    cases hLookup
  · exact hEffect.rooted (hRooted conn fids hConn)

theorem rootedFids_final
    (hasher : Hasher)
    (fs : RamFs)
    (events : List Event) :
    (Run.final (step hasher) (start fs)
      events).RootedFids := by
  apply @Run.invariant _ _ (step hasher) RootedFids
    (fun srv event hRooted => hRooted.step hasher event)
  intro conn fids hConn
  cases hConn

end Server

end Planten

------------------------------------------------------------
-- Walk Requests
------------------------------------------------------------

namespace Planten

namespace Server

/-
  What a walk from a path along names does: it is answered
  just when there is a node at the start, or at every point
  after it, with the qids of these nodes, and binds the new
  fid to the last one, not open.  Otherwise it is refused and
  changes nothing.
-/
structure FollowsTrail
    (hasher : Hasher)
    (srv : Server)
    (conn : Nat)
    (fids : FidTable)
    (base : String)
    (newfid : UInt32)
    (names : List String)
    (tag : UInt16)
    (body : Bytes)
    (clock : Clock) : Prop where
  answered_iff :
    srv.replyType hasher
        (.request conn TWALK tag body clock) = some RWALK ↔
      (names = [] →
        (srv.ramfs.view (components base)).isSome) ∧
      ∀ point ∈ walkTrail (components base) names,
        (srv.ramfs.view point).isSome
  answered :
    srv.replyType hasher
        (.request conn TWALK tag body clock) = some RWALK →
      ∃ qids newQid,
        qids.length = names.length ∧
        (trailPaths base names).map
            (nodeQid? hasher srv.ramfs) = qids.map some ∧
        nodeQid? hasher srv.ramfs (trailEndPath base names) =
          some newQid ∧
        (Reply.rwalk qids).frame tag =
          .ok (srv.sent hasher
            (.request conn TWALK tag body clock)) ∧
        srv.step hasher
            (.request conn TWALK tag body clock) =
          { srv with
            conns :=
              Function.update srv.conns conn
                (some (KeyMap.insert newfid
                  ⟨trailEndPath base names, newQid, none⟩
                  fids)) }
  refused :
    srv.replyType hasher
        (.request conn TWALK tag body clock) ≠ some RWALK →
      srv.replyType hasher
          (.request conn TWALK tag body clock) =
        some RERROR ∧
      srv.step hasher
          (.request conn TWALK tag body clock) = srv

variable {hasher : Hasher} {srv : Server}
variable {conn : Nat} {fids : FidTable}
variable {fid newfid : UInt32} {state : FidState}
variable {nwname : UInt16} {cursor rest body : Bytes}
variable {names : List String}

/-
  A walk from a fid of the table, along names that can be
  read, is answered after its trail or refused before a node
  that is missing.
-/
theorem walk_cases
    (hConn : srv.conns conn = some fids)
    (hFid : fids.lookup fid = some state)
    (hDecode :
      Request.decode TWALK body =
        .ok (.twalk fid newfid nwname cursor))
    (hRead :
      (Decoder.many readString nwname.toNat).run cursor =
        .ok (names, rest))
    (hNames : ∀ name ∈ names, name ≠ "")
    (hLock : srv.poisoned = false)
    (tag : UInt16)
    (clock : Clock) :
    (∃ qids newQid,
      (trailPaths state.path names).map
          (nodeQid? hasher srv.ramfs) = qids.map some ∧
      nodeQid? hasher srv.ramfs
          (trailEndPath state.path names) = some newQid ∧
      srv.replyType hasher
          (.request conn TWALK tag body clock) =
        some RWALK ∧
      (Reply.rwalk qids).frame tag =
        .ok (srv.sent hasher
          (.request conn TWALK tag body clock)) ∧
      srv.step hasher
          (.request conn TWALK tag body clock) =
        { srv with
          conns :=
            Function.update srv.conns conn
              (some (KeyMap.insert newfid
                ⟨trailEndPath state.path names, newQid,
                  none⟩ fids)) }) ∨
    ((∃ path ∈ trailEndPath state.path names ::
          trailPaths state.path names,
        srv.ramfs.stat path = none) ∧
      srv.replyType hasher
          (.request conn TWALK tag body clock) =
        some RERROR ∧
      srv.step hasher
          (.request conn TWALK tag body clock) = srv) := by
  have hBase :
      (walkBaseState hasher srv.ramfs fids fid).path =
        state.path := by
    rw [walkBaseState, hFid]
  have hSame :
      Function.update srv.conns conn (some fids) =
        srv.conns := by
    rw [← hConn]
    exact Function.update_eq_self conn srv.conns
  have hWalk :=
    @walkNames_spec srv.ramfs hasher _ _ _ _ hRead hNames
      state.path []
  rw [← hBase] at hWalk
  rcases served_of_safe hConn hDecode
    (fun _ _ => Hazard.not_walk hLock)
    (by
      rintro _ _ _ _ err ⟨⟩ hError
      rcases hWalk with ⟨found, _, hFound⟩ |
        ⟨_, message, hMessage⟩
      · cases hFound.symm.trans hError
      · cases hMessage.symm.trans hError) with
    ⟨fs, fids', reply, hEffect, hStep, hAfter, hType⟩
  rcases sent_of_step hStep with ⟨frame, hFrame, hSent⟩
  rw [← hSent] at hFrame
  rw [hType, hAfter]
  rcases hWalk with ⟨found, hFound, hNamesOk⟩ |
    ⟨⟨path, hMem, hNone⟩, message, hNamesErr⟩
  · have hTarget := walkTarget_eq (hBase ▸ hFound)
    rw [hBase] at hNamesOk
    cases hEffect with
    | walk hNames' hTarget' =>
        rw [hBase] at hNames'
        cases hNamesOk.symm.trans hNames'
        left
        rw [List.nil_append] at hTarget'
        rw [hTarget] at hTarget'
        split at hTarget'
        · rename_i newQid hQid
          cases hTarget'
          exact ⟨found, _, hBase ▸ hFound, hQid, rfl,
            hFrame, rfl⟩
        · cases hTarget'
    | refused hRefusal =>
        right
        cases hRefusal with
        | unknownFid hSource hMissing =>
            cases hSource
        | walkName hNames' =>
            rw [hBase] at hNames'
            cases hNamesOk.symm.trans hNames'
        | walkTarget hNames' hTarget' =>
            rw [hBase] at hNames'
            cases hNamesOk.symm.trans hNames'
            rw [List.nil_append] at hTarget'
            rw [hTarget] at hTarget'
            split at hTarget'
            · cases hTarget'
            · rename_i hQid
              refine ⟨⟨_, List.mem_cons_self .., ?_⟩, rfl,
                ?_⟩
              · exact Option.map_eq_none_iff.mp hQid
              · rw [hSame]
  · right
    cases hEffect with
    | walk hNames' hTarget' =>
        cases hNamesErr.symm.trans hNames'
    | refused hRefusal =>
        refine ⟨⟨path, List.mem_cons_of_mem _ ?_, hNone⟩,
          rfl, ?_⟩
        · rwa [hBase] at hMem
        · rw [hSame]

/- Under a poisoned lock a walk panics. -/
theorem panics_of_walk_poisoned
    (hConn : srv.conns conn = some fids)
    (hDecode :
      Request.decode TWALK body =
        .ok (.twalk fid newfid nwname cursor))
    (hLock : srv.poisoned = true)
    (tag : UInt16)
    (clock : Clock) :
    srv.Panics hasher
      (.request conn TWALK tag body clock) := by
  rcases ok_of_map_ok hDecode with ⟨r, hFields, hReq⟩
  cases hReq
  apply panics_of_message hConn
  change handleWalk hasher tag body (srv.session fids) = _
  rw [handleWalk, run_bind, run_parse, hFields]
  exact run_walk_poisoned hasher tag (srv.session fids) _ _
    _ _ hLock

/-
  Where the start, or every point after it, is a node, so is
  the end, which is the start or the last of the points.
-/
theorem isSome_of_trail
    {fs : RamFs}
    {base : String}
    (hLength :
      (trailPaths base names).length = names.length)
    (hStart :
      names = [] → (fs.view (components base)).isSome)
    (hAll :
      ∀ path ∈ trailPaths base names,
        (fs.view (components path)).isSome) :
    ∀ path ∈ trailEndPath base names ::
        trailPaths base names,
      (fs.view (components path)).isSome := by
  intro path hMem
  rcases List.mem_cons.mp hMem with rfl | hOn
  · unfold trailEndPath
    cases hLast : (trailPaths base names).getLast? with
    | none =>
        apply hStart
        rw [List.getLast?_eq_none_iff] at hLast
        rw [hLast] at hLength
        exact List.eq_nil_of_length_eq_zero hLength.symm
    | some last =>
        exact hAll last (List.mem_of_getLast? hLast)
  · exact hAll path hOn

/- Such a walk follows the trail of its names. -/
theorem followsTrail_of_unpoisoned
    (hConn : srv.conns conn = some fids)
    (hFid : fids.lookup fid = some state)
    (hDecode :
      Request.decode TWALK body =
        .ok (.twalk fid newfid nwname cursor))
    (hRead :
      (Decoder.many readString nwname.toNat).run cursor =
        .ok (names, rest))
    (hNames : ∀ name ∈ names, name ≠ "")
    (hLock : srv.poisoned = false)
    (tag : UInt16)
    (clock : Clock) :
    FollowsTrail hasher srv conn fids state.path newfid names
      tag body clock := by
  have hTrail := components_trailPaths hNames state.path
  have hLength :
      (trailPaths state.path names).length =
        names.length := by
    rw [← List.length_map (f := components), hTrail,
      length_walkTrail]
  have hPoints :
      (∀ point ∈ walkTrail (components state.path) names,
        (srv.ramfs.view point).isSome) ↔
      ∀ path ∈ trailPaths state.path names,
        (srv.ramfs.view (components path)).isSome := by
    rw [← hTrail, List.forall_mem_map]
  rcases walk_cases hConn hFid hDecode hRead hNames hLock tag
    clock with
    ⟨qids, newQid, hQids, hNew, hType, hFrame, hStep⟩ |
      ⟨⟨path, hMem, hNone⟩, hType, hStep⟩
  · constructor
    · refine ⟨fun _ => ⟨?_, hPoints.mpr ?_⟩, fun _ => hType⟩
      · rintro rfl
        exact isSome_view_of_nodeQid? hNew
      · intro path hMem
        have hQid :=
          List.mem_map_of_mem (f := nodeQid? hasher srv.ramfs)
            hMem
        rw [hQids] at hQid
        rcases List.mem_map.mp hQid with ⟨qid, _, hEq⟩
        exact isSome_view_of_nodeQid? hEq.symm
    · intro _
      refine ⟨qids, newQid, ?_, hQids, hNew, hFrame, hStep⟩
      have hLengths := congrArg List.length hQids
      rw [List.length_map, List.length_map, hLength]
        at hLengths
      exact hLengths.symm
    · intro hNot
      exact (hNot hType).elim
  · have hMissing :
        srv.ramfs.view (components path) = none :=
      (srv.ramfs.stat_eq_none_iff path).mp hNone
    have hNot :
        srv.replyType hasher
            (.request conn TWALK tag body clock) ≠
          some RWALK := by
      rw [hType]
      decide
    constructor
    · refine ⟨fun hYes => (hNot hYes).elim, ?_⟩
      rintro ⟨hStart, hAll⟩
      rw [hPoints] at hAll
      have hSome :=
        isSome_of_trail hLength hStart hAll path hMem
      rw [hMissing] at hSome
      cases hSome
    · intro hYes
      exact (hNot hYes).elim
    · exact fun _ => ⟨hType, hStep⟩

/- It does so just when the lock is not poisoned. -/
theorem followsTrail_iff
    (hConn : srv.conns conn = some fids)
    (hFid : fids.lookup fid = some state)
    (hDecode :
      Request.decode TWALK body =
        .ok (.twalk fid newfid nwname cursor))
    (hRead :
      (Decoder.many readString nwname.toNat).run cursor =
        .ok (names, rest))
    (hNames : ∀ name ∈ names, name ≠ "")
    (tag : UInt16)
    (clock : Clock) :
    FollowsTrail hasher srv conn fids state.path newfid names
        tag body clock ↔
      srv.poisoned = false := by
  constructor
  · intro hFollows
    rw [← Bool.not_eq_true]
    intro hLock
    have hNothing :
        srv.replyType hasher
          (.request conn TWALK tag body clock) = none := by
      rw [replyType, sent_of_panics _
        (panics_of_walk_poisoned hConn hDecode hLock tag
          clock)]
      rfl
    have hRefused := hFollows.refused (by
      rw [hNothing]
      exact (Option.some_ne_none _).symm)
    cases hNothing.symm.trans hRefused.1
  · intro hLock
    exact followsTrail_of_unpoisoned hConn hFid hDecode hRead
      hNames hLock tag clock

end Server

end Planten

------------------------------------------------------------
-- Walks along Runs
------------------------------------------------------------

namespace Planten

namespace Server

/-
  In every run the path of a fid is rooted, a walk step from
  it is navigation on components and stays below the root,
  and a walk from it follows the trail of its names just when
  no panic has poisoned the lock.
-/
theorem walk_refines
    (hasher : Hasher)
    (fs : RamFs)
    (events : List Event)
    {conn : Nat}
    {fids : FidTable}
    {fid : UInt32}
    {state : FidState}
    (hConn :
      (Run.final (step hasher) (start fs) events).conns
        conn = some fids)
    (hFid : fids.lookup fid = some state) :
    RootedPath state.path ∧
    (∀ name : String,
      name ≠ "" →
        ∃ path,
          resolveStep state.path name = some path ∧
            RootedPath path ∧
            components path =
              walkComponents (components state.path)
                name) ∧
    ∀ newfid nwname cursor names rest tag body clock,
      Request.decode TWALK body =
          .ok (.twalk fid newfid nwname cursor) →
        (Decoder.many readString nwname.toNat).run cursor =
            .ok (names, rest) →
          (∀ name ∈ names, name ≠ "") →
            components (trailEndPath state.path names) =
                walkEnd (components state.path) names ∧
              (trailPaths state.path names).map components =
                walkTrail (components state.path) names ∧
              (FollowsTrail hasher
                  (Run.final (step hasher) (start fs)
                    events)
                  conn fids state.path newfid names tag body
                  clock ↔
                (Run.final (step hasher) (start fs)
                  events).poisoned = false) := by
  have hRooted :=
    rootedFids_final hasher fs events conn fids hConn fid
      state hFid
  refine ⟨hRooted, ?_, ?_⟩
  · intro name hName
    rcases resolveStep_of_nonempty state.path hName with
      ⟨path, hStep, hPath⟩
    exact ⟨path, hStep,
      rootedPath_of_resolveStep hRooted hStep, hPath⟩
  · intro newfid nwname cursor names rest tag body clock
      hDecode hRead hNames
    refine ⟨components_trailEndPath hNames _,
      components_trailPaths hNames _, ?_⟩
    exact followsTrail_iff hConn hFid hDecode hRead hNames
      tag clock

/- A client attaches and creates the file `a`. -/
def createdFile : List Event :=
  attached ++
    [.request 0 TCREATE 0 (encodeCreateBody 0 "a" 0 0)
      (fun _ => 0)]

/- A walk from the root finds the file that was created. -/
theorem walk_refines_of_createdFile :
    (Run.final (step (fun _ _ => 0))
      (start (RamFs.fresh 0)) createdFile).replyType
        (fun _ _ => 0)
        (.request 0 TWALK 0 (encodeWalkBody 0 1 ["..", "a"])
          (fun _ => 0)) =
      some RWALK := by
  have hNames : ∀ name ∈ ["..", "a"], name ≠ "" := by
    decide
  have hFits :
      ∀ name ∈ ["..", "a"], name.utf8ByteSize ≤ 65535 := by
    decide
  have hRefines :=
    @walk_refines (fun _ _ => 0) (RamFs.fresh 0) createdFile
      0 [(0, .new "/" ⟨0x80, 0, 0⟩)] 0
      (.new "/" ⟨0x80, 0, 0⟩)
      (by decide +kernel) (by decide +kernel)
  have hFollows :=
    (hRefines.2.2 1 2 (["..", "a"].flatMap encodeString)
      ["..", "a"] [] 0 (encodeWalkBody 0 1 ["..", "a"])
      (fun _ => 0) (Request.decode_walk 0 1 ["..", "a"])
      (decodes_names hFits).run_nil hNames).2.2.mpr
      (by decide +kernel)
  apply hFollows.answered_iff.mpr
  constructor
  · intro hNil
    cases hNil
  · decide +kernel

/-
  Another client poisons the lock; a walk that stays at the
  root is then not answered.
-/
theorem not_walk_of_poisoned :
    ¬ ∀ (hasher : Hasher) (now : SystemTime) (fs : RamFs)
        (events : List Event) (conn : Nat)
        (fid newfid : UInt32) (base : String) (tag : UInt16)
        (clock : Clock),
      RamFs.new now = .ok fs →
        (Run.final (step hasher) (start fs) events).fidPath
            conn fid = some base →
          ((Run.final (step hasher) (start fs)
              events).ramfs.view (components base)).isSome →
            (Run.final (step hasher) (start fs)
                events).replyType hasher
                  (.request conn TWALK tag
                    (encodeWalkBody fid newfid []) clock) =
              some RWALK := by
  intro hAlways
  have hFalse :=
    hAlways (fun _ _ => 0) 0 (RamFs.fresh 0)
      ([.accept 1,
          .request 1 TATTACH 0 (encodeAttachBody 0 none "" "")
            (fun _ => 0)] ++
        oneByteWrite 0xffffffffffffffff)
      1 0 1 "/" 0 (fun _ => 0)
      (RamFs.new_eq_fresh (le_refl 0))
      (by decide +kernel) (by decide +kernel)
  exact absurd hFalse (by decide +kernel)

end Server

end Planten
