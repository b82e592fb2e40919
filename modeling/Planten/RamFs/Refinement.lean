import Planten.RamFs.View

/-
  The RAM file system refines the flat map.

  A file system that its operations have built from a fresh
  one names every node by its key, answers every question as
  its map does, and changes as its map does.

  Key definitions include:
    * `FlatFs.NamedByKeys`
    * `RamFs.Reachable`
    * `RamFs.RefinesFlat`

  Key theorems include:
    * `RamFs.Reachable.namedByKeys`
    * `RamFs.refinesFlat_of_reachable`
-/

------------------------------------------------------------
-- Names and Keys
------------------------------------------------------------

namespace Planten

namespace FlatFs

/- Every node but the root has the name of its last key. -/
def NamedByKeys (m : FlatFs) : Prop :=
  m.Forall (fun q attrs =>
    ∀ k, q.getLast? = some k → attrs.name = k)

theorem name_freshDir
    (clock : Clock)
    {q : List String}
    {k : String}
    (hLast : q.getLast? = some k) :
    (Inode.freshDir clock 0 q).name = k := by
  change q.getLastD "" = k
  rw [List.getLastD_eq_getLast?, hLast]
  rfl

theorem name_freshFile
    (clock : Clock)
    (data : Bytes)
    {q : List String}
    {k : String}
    (hLast : q.getLast? = some k) :
    (Inode.freshFile clock data 0 q).name = k :=
  name_freshDir clock hLast

/- A stat that is applied keeps the name. -/
theorem name_of_applyStat
    {stat : Stat}
    {attrs attrs' : Attrs}
    (hAttrs : Inode.applyStat stat attrs = .ok attrs') :
    attrs'.name = attrs.name := by
  unfold Inode.applyStat at hAttrs
  rw [bind_eq_ok_iff] at hAttrs
  rcases hAttrs with ⟨data, _, hAttrs⟩
  cases hAttrs
  rfl

variable {m m' : FlatFs}

theorem NamedByKeys.fill
    {fresh : List String → Attrs}
    {p : List String}
    (hNamed : m.NamedByKeys)
    (hFresh : ∀ q k,
      q.getLast? = some k → (fresh q).name = k) :
    NamedByKeys (PathMap.fill fresh m p) :=
  PathMap.Forall.fill hNamed
    (fun q _ _ k hLast => hFresh q k hLast)

/- A node keeps its name when only its other fields change. -/
theorem NamedByKeys.assign
    {p : List String}
    {attrs attrs' : Attrs}
    (hNamed : m.NamedByKeys)
    (hNode : m p = some attrs)
    (hName : attrs'.name = attrs.name) :
    NamedByKeys (PathMap.assign m p attrs') := by
  refine PathMap.Forall.assign hNamed ?_
  intro k hLast
  rw [hName]
  exact hNamed p attrs hNode k hLast

/- A moved branch is named by its new key. -/
theorem NamedByKeys.relabel
    {p : List String}
    {k k' : String}
    {attrs : Attrs}
    (hNamed : m.NamedByKeys)
    (hName : attrs.name = k') :
    NamedByKeys (PathMap.relabel m p k k' attrs) := by
  refine PathMap.Forall.relabel hNamed ?_ ?_
  · intro k₀ hLast
    rw [List.getLast?_concat] at hLast
    rw [hName]
    exact Option.some.inj hLast
  · intro q w hNonempty hEntry k₀ hLast
    apply hEntry k₀
    rw [List.getLast?_append_of_ne_nil _ hNonempty]
      at hLast ⊢
    exact hLast

theorem NamedByKeys.createFile
    {p : List String}
    {data : Bytes}
    {clock : Clock}
    {u : Unit}
    (hNamed : m.NamedByKeys)
    (hOp : m.createFile p data clock = .ok (m', u)) :
    m'.NamedByKeys := by
  unfold FlatFs.createFile at hOp
  split at hOp
  · cases hOp
    exact hNamed
  · split at hOp
    · cases hOp
    · cases hOp
      refine (hNamed.fill
        (fun q k => name_freshDir clock)).plant ?_
      refine PathMap.Forall.single ?_
      intro k hLast
      rw [List.append_nil] at hLast
      exact name_freshFile clock data hLast

theorem NamedByKeys.createDir
    {p : List String}
    {clock : Clock}
    {u : Unit}
    (hNamed : m.NamedByKeys)
    (hOp : m.createDir p clock = .ok (m', u)) :
    m'.NamedByKeys := by
  unfold FlatFs.createDir at hOp
  split at hOp
  · cases hOp
  · cases hOp
    exact hNamed.fill (fun q k => name_freshDir clock)

theorem NamedByKeys.write
    {p : List String}
    {offset : UInt64}
    {buf : Bytes}
    {clock : Clock}
    {written : Option UInt32}
    (hNamed : m.NamedByKeys)
    (hOp :
      m.write p offset buf clock = .ok (m', written)) :
    m'.NamedByKeys := by
  unfold FlatFs.write at hOp
  split at hOp
  · cases hOp
    exact hNamed
  · split at hOp
    · cases hOp
      exact hNamed
    · rename_i attrs hNode
      rw [bind_eq_ok_iff] at hOp
      rcases hOp with ⟨data, _, hOp⟩
      cases hOp
      exact hNamed.assign hNode rfl

theorem NamedByKeys.remove
    {p : List String}
    {done : Option Unit}
    (hNamed : m.NamedByKeys)
    (hOp : m.remove p = (m', done)) :
    m'.NamedByKeys := by
  unfold FlatFs.remove at hOp
  split at hOp
  · cases hOp
    exact hNamed
  · cases hOp
    exact PathMap.Forall.prune hNamed p

theorem NamedByKeys.wstatFromStat
    {p : List String}
    {stat : Stat}
    {done : Option Unit}
    (hNamed : m.NamedByKeys)
    (hOp : m.wstatFromStat p stat = .ok (m', done)) :
    m'.NamedByKeys := by
  unfold FlatFs.wstatFromStat at hOp
  split at hOp
  · cases hOp
    exact hNamed
  · rename_i attrs hNode
    split at hOp
    · cases hOp
      exact hNamed.assign hNode rfl
    · rw [bind_eq_ok_iff] at hOp
      rcases hOp with ⟨attrs', hAttrs, hOp⟩
      split at hOp
      · split at hOp
        · cases hOp
          exact hNamed
        · cases hOp
          exact hNamed.relabel rfl
      · cases hOp
        exact hNamed.assign hNode (name_of_applyStat hAttrs)

end FlatFs

end Planten

------------------------------------------------------------
-- Reachable File Systems
------------------------------------------------------------

namespace Planten

namespace RamFs

/- A file system its operations build from a fresh one. -/
inductive Reachable : RamFs → Prop where
| new
    {now : SystemTime} {fs : RamFs}
    (hNew : RamFs.new now = .ok fs) :
    Reachable fs
| createFile
    {fs fs' : RamFs} {path : String} {data : Bytes}
    {clock : Clock}
    (hReach : Reachable fs)
    (hOp : fs.createFile path data clock = .ok (fs', ())) :
    Reachable fs'
| createDir
    {fs fs' : RamFs} {path : String} {clock : Clock}
    (hReach : Reachable fs)
    (hOp : fs.createDir path clock = .ok (fs', ())) :
    Reachable fs'
| write
    {fs fs' : RamFs} {path : String} {offset : UInt64}
    {buf : Bytes} {clock : Clock} {written : Option UInt32}
    (hReach : Reachable fs)
    (hOp :
      fs.write path offset buf clock =
        .ok (fs', written)) :
    Reachable fs'
| remove
    {fs fs' : RamFs} {path : String} {done : Option Unit}
    (hReach : Reachable fs)
    (hOp : fs.remove path = .ok (fs', done)) :
    Reachable fs'
| wstatFromStat
    {fs fs' : RamFs} {path : String} {stat : Stat}
    {done : Option Unit}
    (hReach : Reachable fs)
    (hOp : fs.wstatFromStat path stat = .ok (fs', done)) :
    Reachable fs'

/- The file system of a clock after the epoch. -/
def fresh (now : SystemTime) : RamFs :=
  ⟨.leaf (freshAttrs "/" dirMode now),
    KeyTree.UniqueKeys.leaf _⟩

theorem new_eq_fresh
    {now : SystemTime}
    (hEpoch : 0 ≤ now) :
    RamFs.new now = .ok (fresh now) := by
  have hRoot :
      Inode.new "/" dirMode now =
        .ok (.leaf (freshAttrs "/" dirMode now)) :=
    if_neg (not_lt.mpr hEpoch)
  unfold RamFs.new
  split
  · rename_i root hNew
    rw [hRoot] at hNew
    cases hNew
    rfl
  · rename_i e hNew
    rw [hRoot] at hNew
    cases hNew

/- With such a clock a directory is created. -/
theorem exists_createDir
    (fs : RamFs)
    (path : String)
    {clock : Clock}
    (hEpoch : ∀ i, 0 ≤ clock i) :
    ∃ fs', fs.createDir path clock = .ok (fs', ()) := by
  cases hRun : fs.createDir path clock with
  | ok r =>
      exact ⟨r.1, rfl⟩
  | error e =>
      have hView := fs.view_createDir path clock
      rw [hRun, FlatFs.createDir] at hView
      split at hView
      · rename_i hBefore
        rcases hBefore with ⟨i, _, _, hBefore⟩
        exact absurd (hEpoch i) (not_le.mpr hBefore)
      · cases hView

/- A fresh file system is a root without children. -/
theorem view_of_new
    {now : SystemTime}
    {fs : RamFs}
    (hNew : RamFs.new now = .ok fs) :
    fs.view =
      PathMap.single (freshAttrs "/" dirMode now) := by
  have hEpoch : 0 ≤ now := by
    by_contra hBefore
    have hRoot :
        Inode.new "/" dirMode now = .error .unwrapFailed :=
      if_pos (not_le.mp hBefore)
    unfold RamFs.new at hNew
    split at hNew
    · rename_i root hOk
      rw [hRoot] at hOk
      cases hOk
    · cases hNew
  rw [new_eq_fresh hEpoch] at hNew
  cases hNew
  funext q
  exact KeyTree.entries_leaf _ q

/- What an operation that succeeds does to the map. -/
theorem viewResult_ok
    {β : Type}
    {fs' : RamFs}
    {r : Except Panic (RamFs × β)}
    {b : β}
    {out : Except Panic (FlatFs × β)}
    (hRun : r = .ok (fs', b))
    (hView : viewResult r = out) :
    out = .ok (fs'.view, b) := by
  rw [← hView, hRun]
  rfl

theorem Reachable.namedByKeys
    {fs : RamFs}
    (hReach : fs.Reachable) :
    fs.view.NamedByKeys := by
  induction hReach with
  | new hNew =>
      rw [view_of_new hNew]
      refine PathMap.Forall.single ?_
      intro k hLast
      cases hLast
  | createFile hReach hOp ih =>
      exact ih.createFile
        (viewResult_ok hOp (view_createFile _ _ _ _))
  | createDir hReach hOp ih =>
      exact ih.createDir
        (viewResult_ok hOp (view_createDir _ _ _))
  | write hReach hOp ih =>
      exact ih.write
        (viewResult_ok hOp (view_write _ _ _ _ _))
  | remove hReach hOp ih =>
      exact ih.remove
        (Except.ok.inj
          (viewResult_ok hOp (view_remove _ _)))
  | wstatFromStat hReach hOp ih =>
      exact ih.wstatFromStat
        (viewResult_ok hOp (view_wstatFromStat _ _ _))

end RamFs

end Planten

------------------------------------------------------------
-- Operations That Fit
------------------------------------------------------------

namespace Planten

namespace FlatFs

/- A write whose end fits a vector splices the data. -/
theorem write_of_fits
    {m : FlatFs}
    {p : List String}
    {offset : UInt64}
    {buf : Bytes}
    {attrs : Attrs}
    (hNonempty : p ≠ [])
    (hNode : m p = some attrs)
    (hFits : offset.toNat + buf.length ≤ isizeMax)
    (clock : Clock) :
    m.write p offset buf clock =
      .ok (m.assign p
        { attrs with
          data := Inode.splice attrs.data offset.toNat buf
          mtime := asSecs (clock 0) },
        some (UInt32.ofNat buf.length)) := by
  have hMax : isizeMax = 2 ^ 63 - 1 := rfl
  have hOverlay :
      Inode.overlay attrs.data offset.toNat buf =
        .ok (Inode.splice attrs.data offset.toNat buf) := by
    rw [Inode.overlay_eq, if_neg (by omega),
      if_neg (by omega)]
  rw [write, if_neg hNonempty, hNode]
  simp only [hOverlay]
  rfl

/- A stat whose length fits a vector is taken or refused. -/
theorem wstatFromStat_of_fits
    (m : FlatFs)
    (p : List String)
    {stat : Stat}
    (hFits :
      stat.length = 0xffffffffffffffff ∨
        stat.length.toNat ≤ isizeMax) :
    ∃ r, m.wstatFromStat p stat = .ok r := by
  have hData (data : Bytes) :
      ∃ data', Inode.statData stat data = .ok data' := by
    unfold Inode.statData resize
    split_ifs with hAsked hShort hLong
    · exact ⟨_, rfl⟩
    · exact ⟨_, rfl⟩
    · rcases hFits with hSame | hSmall
      · exact absurd hSame hAsked
      · exact absurd hSmall hLong
    · exact ⟨_, rfl⟩
  unfold wstatFromStat
  split
  · exact ⟨_, rfl⟩
  · rename_i attrs _
    split
    · exact ⟨_, rfl⟩
    · rcases hData attrs.data with ⟨data, hData⟩
      rw [Inode.applyStat, hData]
      simp only [bind, Except.bind]
      split
      · split
        · exact ⟨_, rfl⟩
        · exact ⟨_, rfl⟩
      · exact ⟨_, rfl⟩

end FlatFs

end Planten

------------------------------------------------------------
-- Refinement
------------------------------------------------------------

namespace Planten

namespace RamFs

/-
  The file system answers and changes as its map does.  The
  operations of `FlatFs` say how the map changes.
-/
structure RefinesFlat (fs : RamFs) : Prop where
  named :
    ∀ q k attrs,
      fs.view (q ++ [k]) = some attrs → attrs.name = k
  statNone :
    ∀ path,
      fs.stat path = none ↔
        fs.view (components path) = none
  statSome :
    ∀ path inode,
      fs.stat path = some inode →
        fs.view (components path) = some inode.val ∧
          inode.entries = fs.view.branch (components path)
  readFile :
    ∀ path,
      components path ≠ [] →
        fs.readFile path =
          (fs.view (components path)).map Attrs.data
  listDirNone :
    ∀ path,
      fs.listDir path = none ↔
        fs.view (components path) = none
  listDirSome :
    ∀ path names,
      fs.listDir path = some names →
        names.Pairwise (· < ·) ∧
          ∀ k, k ∈ names ↔
            (fs.view (components path ++ [k])).isSome
  createFile :
    ∀ path data clock,
      viewResult (fs.createFile path data clock) =
        fs.view.createFile (components path) data clock
  createDir :
    ∀ path clock,
      viewResult (fs.createDir path clock) =
        fs.view.createDir (components path) clock
  write :
    ∀ path offset buf clock,
      viewResult (fs.write path offset buf clock) =
        fs.view.write (components path) offset buf clock
  writeFits :
    ∀ path offset buf clock attrs,
      components path ≠ [] →
        fs.view (components path) = some attrs →
          offset.toNat + buf.length ≤ isizeMax →
            viewResult (fs.write path offset buf clock) =
              .ok (fs.view.assign (components path)
                { attrs with
                  data :=
                    Inode.splice attrs.data offset.toNat buf
                  mtime := asSecs (clock 0) },
                some (UInt32.ofNat buf.length))
  remove :
    ∀ path,
      viewResult (fs.remove path) =
        .ok (fs.view.remove (components path))
  wstatFromStat :
    ∀ path stat,
      viewResult (fs.wstatFromStat path stat) =
        fs.view.wstatFromStat (components path) stat
  wstatFits :
    ∀ path stat,
      stat.length = 0xffffffffffffffff ∨
          stat.length.toNat ≤ isizeMax →
        ∃ r,
          viewResult (fs.wstatFromStat path stat) = .ok r

/- What the operations build refines the flat map. -/
theorem refinesFlat_of_reachable
    {fs : RamFs}
    (hReach : fs.Reachable) :
    fs.RefinesFlat where
  named := by
    intro q k attrs hNode
    exact hReach.namedByKeys _ attrs hNode k
      List.getLast?_concat
  statNone := fs.stat_eq_none_iff
  statSome := fun _ _ hStat =>
    ⟨view_of_stat hStat, entries_stat hStat⟩
  readFile := fun _ hNonempty => fs.readFile_eq hNonempty
  listDirNone := fs.listDir_eq_none_iff
  listDirSome := fun _ _ hList => listDir_eq_some hList
  createFile := fs.view_createFile
  createDir := fs.view_createDir
  write := fs.view_write
  writeFits := by
    intro path offset buf clock attrs hNonempty hNode hFits
    rw [fs.view_write]
    exact FlatFs.write_of_fits hNonempty hNode hFits clock
  remove := fs.view_remove
  wstatFromStat := fs.view_wstatFromStat
  wstatFits := by
    intro path stat hFits
    rw [fs.view_wstatFromStat]
    exact fs.view.wstatFromStat_of_fits _ hFits

/- A directory on a fresh file system. -/
theorem refinesFlat_of_docs :
    ∃ fs,
      (fresh 0).createDir "/docs" (fun _ => 0) =
          .ok (fs, ()) ∧
        fs.RefinesFlat := by
  rcases (fresh 0).exists_createDir "/docs"
    (fun _ => le_rfl) with ⟨fs, hDocs⟩
  exact ⟨fs, hDocs, refinesFlat_of_reachable
    (.createDir (.new (new_eq_fresh le_rfl)) hDocs)⟩

/-
  The root takes no file, and a path that is not there has
  no listing, not even an empty one.
-/
theorem createFile_root_and_listDir_missing :
    (fresh 0).Reachable ∧
      (fresh 0).createFile "/" [7] (fun _ => 0) =
        .ok (fresh 0, ()) ∧
      ((fresh 0).view (components "/")).map Attrs.data =
        some [] ∧
      (fresh 0).listDir "/docs" = none :=
  ⟨.new (new_eq_fresh le_rfl), rfl, by decide, by decide⟩

end RamFs

end Planten
