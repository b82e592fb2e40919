import Planten.RamFs.Decoding
import Planten.RamFs.Separation
import Planten.RamFs.Panics

/-
  Stored entries stay addressable, where requests add plain
  names.

  A name enters the tree as a component of the name of a
  create request, or as the new name of a stat.  A walk step
  gives a meaning to `.` and `..` and to slashes, so a walk
  finds an entry by its key exactly when the key is plain.

  Key definitions include:
    * `PlainName`

  Key theorems include:
    * `walkComponents_of_plainName`
    * `walkNames_of_view`
    * `Server.walk_of_view`
    * `Server.addressable`
-/

------------------------------------------------------------
-- Plain Names
------------------------------------------------------------

namespace Planten

/- A name that a walk step takes for itself. -/
structure PlainName (name : String) : Prop where
  nonempty : name ≠ ""
  slashFree : '/' ∉ name.toList
  not_dot : name ≠ "."
  not_dots : name ≠ ".."

instance (name : String) : Decidable (PlainName name) :=
  decidable_of_iff
    (name ≠ "" ∧ '/' ∉ name.toList ∧ name ≠ "." ∧
      name ≠ "..")
    ⟨fun ⟨hNonempty, hSlash, hDot, hDots⟩ =>
        ⟨hNonempty, hSlash, hDot, hDots⟩,
      fun hPlain =>
        ⟨hPlain.nonempty, hPlain.slashFree, hPlain.not_dot,
          hPlain.not_dots⟩⟩

/- A step with a plain name goes one component down. -/
theorem walkComponents_of_plainName
    (base : List String)
    {name : String}
    (hPlain : PlainName name) :
    walkComponents base name = base ++ [name] := by
  have hNotSlash : name ≠ "/" := by
    rintro rfl
    exact hPlain.slashFree (by decide)
  rw [walkComponents, if_neg hPlain.not_dot,
    if_neg hPlain.not_dots, if_neg hNotSlash,
    components_of_plain hPlain.nonempty hPlain.slashFree]

theorem resolveStep_of_plainName
    (base : String)
    {name : String}
    (hPlain : PlainName name) :
    ∃ path,
      resolveStep base name = some path ∧
        components path = components base ++ [name] := by
  cases hStep : resolveStep base name with
  | none =>
      exact absurd
        ((resolveStep_eq_none_iff base name).mp hStep)
        hPlain.nonempty
  | some path =>
      refine ⟨path, rfl, ?_⟩
      rw [components_resolveStep hStep,
        walkComponents_of_plainName _ hPlain]

/- A walk along plain names reaches the node at their end. -/
theorem walkNames_of_view
    (hasher : Hasher)
    {fs : RamFs}
    {names : List String}
    (hPlain : ∀ name ∈ names, PlainName name)
    (hFits : ∀ name ∈ names, name.utf8ByteSize ≤ 65535)
    {base : String}
    (hNode : (fs.view (components base ++ names)).isSome)
    (qids : List Qid) :
    ∃ path qids',
      walkNames hasher fs names.length
          (names.flatMap encodeString) base qids =
        .ok (.ok (path, qids')) ∧
        components path = components base ++ names := by
  induction names generalizing base qids with
  | nil =>
      exact ⟨base, qids, rfl, (List.append_nil _).symm⟩
  | cons name names ih =>
      rcases resolveStep_of_plainName base
        (hPlain name (List.mem_cons_self ..)) with
        ⟨next, hStep, hNext⟩
      have hPath :
          components base ++ name :: names =
            components next ++ names := by
        rw [hNext, List.append_assoc]
        rfl
      rw [hPath] at hNode ⊢
      have hHere : (fs.view (components next)).isSome :=
        PathMap.isSome_of_append fs.view_closed _ _ hNode
      cases hStat : fs.stat next with
      | none =>
          rw [(fs.stat_eq_none_iff next).mp hStat] at hHere
          cases hHere
      | some inode =>
          have hRead :
              readString.run
                  (encodeString name ++
                    names.flatMap encodeString) =
                .ok (name, names.flatMap encodeString) :=
            decodes_text _
              (hFits name (List.mem_cons_self ..)) _
          rcases ih
            (fun other hMem =>
              hPlain other (List.mem_cons_of_mem _ hMem))
            (fun other hMem =>
              hFits other (List.mem_cons_of_mem _ hMem))
            hNode
            (qids ++ [qidFromInode hasher next inode]) with
            ⟨path, qids', hWalk, hEnd⟩
          refine ⟨path, qids', ?_, hEnd⟩
          rw [List.flatMap_cons, List.length_cons, walkNames,
            hRead, ← hWalk]
          simp only [bind, Except.bind, hStep, hStat]

/- A walk that ends at a node has a qid to end with. -/
theorem walkTarget_ne_error
    (hasher : Hasher)
    {fs : RamFs}
    {path : String}
    (hNode : (fs.view (components path)).isSome)
    (qids : List Qid)
    (message : String) :
    walkTarget hasher fs path qids ≠ .error message := by
  intro hError
  unfold walkTarget at hError
  split at hError
  · cases hError
  · split at hError
    · cases hError
    · rename_i hStat
      rw [(fs.stat_eq_none_iff path).mp hStat] at hNode
      cases hNode

end Planten

------------------------------------------------------------
-- Walks
------------------------------------------------------------

namespace Planten

namespace Server

variable {hasher : Hasher} {srv : Server}

/-
  A walk from a fid along plain names to a node is answered,
  and binds the new fid to the path of that node.
-/
theorem walk_of_view
    (hasher : Hasher)
    (hLock : srv.poisoned = false)
    {conn : Nat}
    {fid newfid : UInt32}
    {base : String}
    {names : List String}
    (hFid : srv.fidPath conn fid = some base)
    (hCount : names.length ≤ 65535)
    (hPlain : ∀ name ∈ names, PlainName name)
    (hFits : ∀ name ∈ names, name.utf8ByteSize ≤ 65535)
    (hNode :
      (srv.ramfs.view (components base ++ names)).isSome)
    (tag : UInt16)
    (clock : Clock) :
    srv.replyType hasher
        (.request conn TWALK tag
          (encodeWalkBody fid newfid names) clock) =
      some RWALK ∧
    ∃ path,
      (srv.step hasher
        (.request conn TWALK tag
          (encodeWalkBody fid newfid names) clock)).fidPath
        conn newfid = some path ∧
      components path = components base ++ names := by
  rcases lookup_of_fidPath hFid with
    ⟨fids, state, hConn, hLookup, rfl⟩
  have hDecode := Request.decode_walk fid newfid names
  have hLength :
      (UInt16.ofNat names.length).toNat = names.length := by
    simp
    omega
  rcases walkNames_of_view hasher hPlain hFits hNode [] with
    ⟨path, qids, hWalk, hEnd⟩
  rw [← hLength] at hWalk
  have hBase :
      (walkBaseState hasher srv.ramfs fids fid).path =
        state.path := by
    rw [walkBaseState, hLookup]
  rw [← hBase] at hWalk
  rcases served_of_safe hConn
    hDecode
    (fun _ _ => Hazard.not_walk hLock)
    (by
      rintro _ _ _ _ err ⟨⟩ hNames
      cases hWalk.symm.trans hNames) with
    ⟨fs, fids', reply, hEffect, _, hAfter, hType⟩
  rw [hType, hAfter]
  cases hEffect with
  | walk hNames hTarget =>
      cases hWalk.symm.trans hNames
      refine ⟨rfl, path, ?_, hEnd⟩
      simp only [fidPath, Function.update_self,
        Option.bind_some, KeyMap.lookup_insert_self]
      rfl
  | refused hRefusal =>
      cases hRefusal with
      | unknownFid hSource hNone =>
          cases hSource
      | walkName hNames =>
          cases hWalk.symm.trans hNames
      | walkTarget hNames hTarget =>
          cases hWalk.symm.trans hNames
          rw [← hEnd] at hNode
          exact (walkTarget_ne_error hasher hNode _ _
            hTarget).elim

/-
  In every run in which requests add plain names only, every
  key of the tree is plain, and a walk from a root fid along
  the keys of a node reaches that node.
-/
theorem addressable
    (hasher : Hasher)
    {now : SystemTime}
    {fs : RamFs}
    (hNew : RamFs.new now = .ok fs)
    {events : List Event}
    (hAdds :
      Run.Always (step hasher)
        (fun srv event =>
          ∀ clock fids req,
            srv.Asks event clock fids req →
              req.AddsKeys PlainName clock srv.ramfs.view
                fids)
        (start fs) events)
    {keys : List String}
    (hNode :
      ((Run.final (step hasher) (start fs)
        events).ramfs.view keys).isSome) :
    (∀ key ∈ keys, PlainName key) ∧
      ∀ conn fid newfid root tag clock,
        (Run.final (step hasher) (start fs)
            events).poisoned = false →
          (Run.final (step hasher) (start fs)
              events).fidPath conn fid = some root →
            components root = [] → keys.length ≤ 65535 →
              (Run.final (step hasher) (start fs)
                  events).replyType hasher
                    (.request conn TWALK tag
                      (encodeWalkBody fid newfid keys)
                      clock) =
                some RWALK ∧
              ∃ path,
                ((Run.final (step hasher) (start fs)
                    events).step hasher
                      (.request conn TWALK tag
                        (encodeWalkBody fid newfid keys)
                        clock)).fidPath conn newfid =
                    some path ∧
                  components path = keys := by
  have hKeys :=
    (KeysHold.final (keysHold_start hNew) hAdds).view
  have hSizes :=
    ((sizesHold_start hNew).final hasher events).keys.view
  generalize
    Run.final (step hasher) (start fs) events = srv
    at hKeys hSizes hNode ⊢
  rcases Option.isSome_iff_exists.mp hNode with
    ⟨attrs, hAttrs⟩
  have hPlain := hKeys keys attrs hAttrs
  refine ⟨hPlain, ?_⟩
  intro conn fid newfid root tag clock hLock hFid hRoot hCount
  have hBelow :
      (srv.ramfs.view (components root ++ keys)).isSome := by
    rwa [hRoot, List.nil_append]
  have hFits := hSizes keys attrs hAttrs
  have hWalk :=
    @walk_of_view srv hasher hLock conn fid newfid root keys
      hFid hCount hPlain hFits hBelow tag clock
  rwa [hRoot, List.nil_append] at hWalk

/- One client creates the file `a`, and walks to it. -/
theorem walk_of_attached :
    (Run.final (step (fun _ _ => 0))
      (start (RamFs.fresh 0))
      (attached ++
        [.request 0 TCREATE 0 (encodeCreateBody 0 "a" 0 0)
          (fun _ => 0)])).replyType (fun _ _ => 0)
      (.request 0 TWALK 0 (encodeWalkBody 0 1 ["a"])
        (fun _ => 0)) =
      some RWALK := by
  have hReach :=
    @addressable (fun _ _ => 0) 0 (RamFs.fresh 0)
      (RamFs.new_eq_fresh (le_refl 0))
      (attached ++
        [.request 0 TCREATE 0 (encodeCreateBody 0 "a" 0 0)
          (fun _ => 0)])
      (by
        refine ⟨?_, ?_, ?_, trivial⟩
        · rintro _ _ _ ⟨_, _, _, _, hEvent, _⟩
          cases hEvent
        · intro clock fids req hAsked
          rcases hAsked.eq_of_decode []
            (.tattach 0 0 "" "") (by decide +kernel)
            (by decide +kernel) with
            ⟨rfl, rfl, rfl⟩
          apply Request.AddsKeys.other
          · intro _ _ _ _ hEq
            cases hEq
          · intro _ _ hEq
            cases hEq
        · intro clock fids req hAsked
          rcases hAsked.eq_of_decode
            [(0, .new "/" ⟨0x80, 0, 0⟩)]
            (.tcreate 0 "a" 0 0) (by decide +kernel)
            (by decide +kernel) with
            ⟨rfl, rfl, rfl⟩
          apply Request.AddsKeys.tcreate
          intro _ _ _ _ _ _
          decide)
      ["a"] (by decide +kernel)
  exact (hReach.2 0 0 1 "/" 0 (fun _ => 0)
    (by decide +kernel) (by decide +kernel) (by decide)
    (by decide)).1

/-
  A client renames the file `a` to `a/b`, which no walk
  finds.
-/
theorem not_plain_of_renamedFile :
    ¬ ∀ (hasher : Hasher) (now : SystemTime) (fs : RamFs)
        (events : List Event),
      RamFs.new now = .ok fs →
        ∀ keys,
          ((Run.final (step hasher) (start fs)
              events).ramfs.view keys).isSome →
            ∀ key ∈ keys, PlainName key := by
  intro hAlways
  have hPlain :=
    hAlways (fun _ _ => 0) 0 (RamFs.fresh 0)
      (openedFile ++
        [.request 0 TWSTAT 0
          (encodeWstatBody 1 (renameStat "a/b"))
          (fun _ => 0)])
      (RamFs.new_eq_fresh (le_refl 0)) ["a/b"]
      (by decide +kernel)
  exact absurd hPlain (by decide)

end Server

end Planten
