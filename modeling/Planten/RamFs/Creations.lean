import Planten.RamFs.Addressing

/-
  What a create request adds.

  The handler looks at the new path only, and the file system
  adds every node that is missing on the way to it.  So one
  entry is added to the directory behind the fid just when
  that directory is still there and is one, and the name is
  plain.

  Key definitions include:
    * `FlatFs.AddsOneEntry`

  Key theorems include:
    * `FlatFs.addsOneEntry_of_plainName`
    * `Server.create_adds_one_iff`
-/

------------------------------------------------------------
-- One Entry
------------------------------------------------------------

namespace Planten

namespace FlatFs

/-
  The map gets one new node, named by its key and empty,
  right inside a directory, and is otherwise the same.
-/
structure AddsOneEntry
    (m : FlatFs)
    (dir : List String)
    (name : String)
    (m' : FlatFs) : Prop where
  parent : ∃ attrs, m dir = some attrs ∧ attrs.IsDir
  plain : PlainName name
  fresh : m (dir ++ [name]) = none
  added :
    ∃ node,
      node.name = name ∧ node.data = [] ∧
        m' = m.assign (dir ++ [name]) node
  childless :
    ∀ below, below ≠ [] → m' (dir ++ [name] ++ below) = none

/- Filling in a plain name in a directory adds one entry. -/
theorem addsOneEntry_of_plainName
    {m : FlatFs}
    {clock : Clock}
    {dir : List String}
    {name : String}
    {perm : UInt32}
    {attrs : Attrs}
    (hClosed : m.Closed)
    (hParent : m dir = some attrs)
    (hDir : attrs.IsDir)
    (hPlain : PlainName name)
    (hFresh : m (dir ++ [name]) = none) :
    m.AddsOneEntry dir name
      (m.fill (createdAttrs clock (dir ++ [name]) perm)
        (dir ++ [name])) := by
  have hSome : (m dir).isSome := by
    rw [hParent]
    rfl
  have hName :
      (createdAttrs clock (dir ++ [name]) perm
        (dir ++ [name])).name = name := by
    have hLast : (dir ++ [name]).getLast? = some name := by
      simp
    unfold createdAttrs
    split
    · exact name_freshFile clock [] hLast
    · exact name_freshDir clock hLast
  rw [PathMap.fill_concat hClosed _ hSome hFresh]
  constructor
  · exact ⟨attrs, hParent, hDir⟩
  · exact hPlain
  · exact hFresh
  · exact ⟨_, hName, data_createdAttrs .., rfl⟩
  · intro below hBelow
    have hNot :
        dir ++ [name] ++ below ≠ dir ++ [name] := by
      intro hEq
      exact hBelow (List.append_right_eq_self.mp hEq)
    rw [PathMap.assign, if_neg hNot]
    exact PathMap.eq_none_of_isPrefix hClosed
      (List.prefix_append _ below) hFresh

end FlatFs

end Planten

------------------------------------------------------------
-- Create Requests
------------------------------------------------------------

namespace Planten

namespace Server

/-
  In every state that is reached, a create request that is
  answered adds one entry to the directory of its fid just
  when there is a directory at the path of the fid and the
  name is plain.
-/
theorem create_adds_one_iff
    (hasher : Hasher)
    (fs : RamFs)
    (events : List Event)
    {conn : Nat}
    {fids : FidTable}
    {fid : UInt32}
    {state : FidState}
    {name : String}
    {perm : UInt32}
    {mode : UInt8}
    {tag : UInt16}
    {body : Bytes}
    {clock : Clock}
    (hConn :
      (Run.final (step hasher) (start fs) events).conns
        conn = some fids)
    (hFid : fids.lookup fid = some state)
    (hDecode :
      Request.decode TCREATE body =
        .ok (.tcreate fid name perm mode))
    (hReply :
      (Run.final (step hasher) (start fs) events).replyType
          hasher (.request conn TCREATE tag body clock) =
        some RCREATE) :
    (Run.final (step hasher) (start fs)
        events).ramfs.view.AddsOneEntry
      (components state.path) name
      ((Run.final (step hasher) (start fs) events).step
        hasher
        (.request conn TCREATE tag body clock)).ramfs.view ↔
      (∃ attrs,
        (Run.final (step hasher) (start fs)
            events).ramfs.view (components state.path) =
          some attrs ∧ attrs.IsDir) ∧
      PlainName name := by
  generalize
    Run.final (step hasher) (start fs) events = srv
    at hConn hReply ⊢
  constructor
  · intro hAdds
    exact ⟨hAdds.parent, hAdds.plain⟩
  · rintro ⟨⟨attrs, hParent, hDir⟩, hPlain⟩
    rcases effect_of_replyType hConn hDecode hReply with
      ⟨fids', reply, hType, hEffect, _⟩
    generalize
      (srv.step hasher
        (.request conn TCREATE tag body clock)).ramfs = fs'
      at hEffect ⊢
    have hChange := hEffect.change
    revert hChange
    generalize fs'.view = m'
    intro hChange
    cases hChange with
    | same hQuiet =>
        exact (hQuiet.1 hType).elim
    | created hFid' hStep hFresh hEpoch =>
        cases hFid.symm.trans hFid'
        rcases resolveStep_of_plainName state.path hPlain with
          ⟨path, hPath, hComponents⟩
        cases hPath.symm.trans hStep
        rw [hComponents] at hFresh ⊢
        exact FlatFs.addsOneEntry_of_plainName
          srv.ramfs.view_closed hParent hDir hPlain hFresh

/- The first file at the root is one entry. -/
theorem create_adds_one_of_attached :
    (Run.final (step (fun _ _ => 0))
        (start (RamFs.fresh 0))
        attached).ramfs.view.AddsOneEntry
      (components "/") "a"
      ((Run.final (step (fun _ _ => 0))
          (start (RamFs.fresh 0)) attached).step
        (fun _ _ => 0)
        (.request 0 TCREATE 0 (encodeCreateBody 0 "a" 0 0)
          (fun _ => 0))).ramfs.view := by
  have hIff :=
    @create_adds_one_iff (fun _ _ => 0) (RamFs.fresh 0)
      attached 0 [(0, .new "/" ⟨0x80, 0, 0⟩)] 0
      (.new "/" ⟨0x80, 0, 0⟩) "a" 0 0 0
      (encodeCreateBody 0 "a" 0 0) (fun _ => 0)
      (by decide +kernel) (by decide +kernel)
      (by decide +kernel) (by decide +kernel)
  apply hIff.mpr
  exact ⟨⟨freshAttrs "/" (0o755 ||| DMDIR) 0,
    by decide +kernel, by decide⟩, by decide⟩

/-
  One client makes a directory, holds it in one fid and
  removes it through another.
-/
def removedDirectory : List Event :=
  attached ++
    [.request 0 TCREATE 0 (encodeCreateBody 0 "d" DMDIR 0)
        (fun _ => 0),
      .request 0 TWALK 0 (encodeWalkBody 0 1 ["d"])
        (fun _ => 0),
      .request 0 TWALK 0 (encodeWalkBody 0 2 ["d"])
        (fun _ => 0),
      .request 0 TREMOVE 0 (encodeRemoveBody 2)
        (fun _ => 0)]

/-
  A create through the fid that is left brings the removed
  directory back.
-/
theorem not_adds_one_of_removedDirectory :
    ¬ ∀ (hasher : Hasher) (fs : RamFs) (events : List Event)
        (conn : Nat) (fid : UInt32) (name : String)
        (perm : UInt32) (mode : UInt8) (tag : UInt16)
        (clock : Clock) (path : String),
      (Run.final (step hasher) (start fs) events).fidPath
          conn fid = some path →
        (Run.final (step hasher) (start fs)
            events).replyType hasher
              (.request conn TCREATE tag
                (encodeCreateBody fid name perm mode)
                clock) = some RCREATE →
          (Run.final (step hasher) (start fs)
              events).ramfs.view.AddsOneEntry
            (components path) name
            ((Run.final (step hasher) (start fs)
                events).step hasher
              (.request conn TCREATE tag
                (encodeCreateBody fid name perm mode)
                clock)).ramfs.view := by
  intro hAlways
  have hAdds :=
    hAlways (fun _ _ => 0) (RamFs.fresh 0) removedDirectory
      0 1 "x" 0 0 0 (fun _ => 0) "/d"
      (by decide +kernel) (by decide +kernel)
  rcases hAdds.parent with ⟨attrs, hParent, _⟩
  have hMissing :
      (Run.final (step (fun _ _ => 0))
        (start (RamFs.fresh 0))
        removedDirectory).ramfs.view (components "/d") =
        none := by
    decide +kernel
  cases hMissing.symm.trans hParent

end Server

end Planten
