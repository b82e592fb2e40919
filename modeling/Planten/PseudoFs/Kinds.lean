import Planten.PseudoFs.Stats

/-
  Directories of the pseudo file systems.

  Whether a path is a directory can be read off its names.
  The host decides only whether there is such a path, so the
  kind of a path never changes.

  Key definitions include:
    * `FsServer.KindLaw`

  Key theorems include:
    * `ProcFs.kindLaw`
    * `SrvFs.kindLaw`
    * `DevFs.kindLaw`
    * `NetFs.kindLaw`
-/

------------------------------------------------------------
-- Kinds of Paths
------------------------------------------------------------

namespace Planten

/- The inodes found at a path are of the kind of the path. -/
def FsServer.KindLaw
    {H : Type}
    (fs : FsServer H)
    (isDir : String → Prop) : Prop :=
  ∀ host path inode,
    fs.stat host path = .ok (some inode) →
      (inode.IsDir ↔ isDir path)

theorem mode_of_statAttrs
    {name : String}
    {mode : UInt32}
    {data : Bytes}
    {clock : Clock}
    {inode : Attrs}
    (hStat :
      statAttrs name mode data clock = .ok (some inode)) :
    inode.mode = mode := by
  have hClock : 0 ≤ clock 1 := by
    by_contra hBefore
    have hPanics :=
      (makesInode_statAttrs name mode data).error clock
        (not_le.mp hBefore)
    cases hStat.symm.trans hPanics
  rw [statAttrs_of_epoch hClock] at hStat
  cases hStat
  rfl

theorem isDir_of_dirMode
    {name : String}
    {data : Bytes}
    {clock : Clock}
    {inode : Attrs}
    (hStat :
      statAttrs name pseudoDirMode data clock =
        .ok (some inode)) :
    inode.IsDir := by
  rw [Attrs.IsDir, mode_of_statAttrs hStat]
  decide

theorem not_isDir_of_fileMode
    {name : String}
    {data : Bytes}
    {clock : Clock}
    {inode : Attrs}
    (hStat :
      statAttrs name 0o444 data clock =
        .ok (some inode)) :
    ¬ inode.IsDir := by
  rw [Attrs.IsDir, mode_of_statAttrs hStat]
  decide

end Planten

------------------------------------------------------------
-- Processes and Services
------------------------------------------------------------

namespace Planten

/- The root and the services. -/
def SrvFs.IsDirPath (path : String) : Prop :=
  (components path).length < 2

/- The root, the processes, and their directories. -/
def ProcFs.IsDirPath (path : String) : Prop :=
  (components path).length < 2 ∨
    ∃ pid name dir,
      components path = [pid, name] ∧
        findEntryKind name = some (.dir dir)

theorem SrvFs.kindLaw :
    SrvFs.fs.KindLaw SrvFs.IsDirPath := by
  intro host path inode hStat
  simp only [SrvFs.fs, SrvFs.stat] at hStat
  unfold SrvFs.IsDirPath
  split at hStat
  · rename_i hPath
    rw [hPath]
    exact iff_of_true (isDir_of_dirMode hStat) (by decide)
  · rename_i service hPath
    rw [hPath]
    split at hStat
    · exact iff_of_true (isDir_of_dirMode hStat)
        Nat.one_lt_two
    · cases hStat
  · rename_i service file hPath
    rw [hPath]
    split at hStat
    · split at hStat
      · exact iff_of_false (not_isDir_of_fileMode hStat)
          (lt_irrefl 2)
      · cases hStat
    · cases hStat
  · cases hStat

theorem ProcFs.kindLaw
    {Pid : Type}
    [DecidableEq Pid]
    (pids : PidText Pid) :
    (ProcFs.fs pids).KindLaw ProcFs.IsDirPath := by
  intro host path inode hStat
  simp only [ProcFs.fs, ProcFs.stat] at hStat
  unfold ProcFs.IsDirPath
  split at hStat
  · rename_i hPath
    rw [hPath]
    exact iff_of_true (isDir_of_dirMode hStat)
      (Or.inl (by decide))
  · rename_i pid hPath
    rw [hPath]
    split at hStat
    · exact iff_of_true (isDir_of_dirMode hStat)
        (Or.inl Nat.one_lt_two)
    · cases hStat
  · rename_i pid name hPath
    rw [hPath]
    split at hStat
    · split at hStat
      · rename_i dir hKind
        exact iff_of_true (isDir_of_dirMode hStat)
          (Or.inr ⟨pid, name, dir, rfl, hKind⟩)
      · rename_i file hKind
        split at hStat
        · apply iff_of_false (not_isDir_of_fileMode hStat)
          rintro (hShort | ⟨_, _, dir, hNames, hDir⟩)
          · exact lt_irrefl 2 hShort
          · cases hNames
            cases hKind.symm.trans hDir
        · cases hStat
      · cases hStat
    · cases hStat
  · rename_i pid dir entry hPath
    rw [hPath]
    split at hStat
    · split at hStat
      · apply iff_of_false (not_isDir_of_fileMode hStat)
        rintro (hShort | ⟨_, _, _, hNames, _⟩)
        · exact absurd hShort (by simp)
        · cases hNames
      · cases hStat
    · cases hStat
  · cases hStat

end Planten

------------------------------------------------------------
-- Devices and Network Files
------------------------------------------------------------

namespace Planten

/- The one directory of a flat file system. -/
def IsRootPath (path : String) : Prop :=
  components path = []

instance (path : String) : Decidable (IsRootPath path) := by
  unfold IsRootPath
  infer_instance

theorem DevFs.mode_of_makeInode
    {name : String}
    {mode : UInt32}
    {clock : Clock}
    {inode : Attrs}
    (hStat :
      DevFs.makeInode name mode clock = .ok (some inode)) :
    inode.mode = mode := by
  rw [DevFs.makeInode, Attrs.new] at hStat
  split at hStat
  · cases hStat
  · cases hStat
    rfl

theorem DevFs.kindLaw : DevFs.fs.KindLaw IsRootPath := by
  intro host path inode hStat
  simp only [DevFs.fs, DevFs.stat] at hStat
  unfold IsRootPath
  split at hStat
  · rename_i hPath
    rw [hPath, Attrs.IsDir, DevFs.mode_of_makeInode hStat]
    exact iff_of_true (by decide) rfl
  · rename_i name hPath
    rw [hPath]
    split at hStat
    · rw [Attrs.IsDir, DevFs.mode_of_makeInode hStat]
      exact iff_of_false (by decide)
        (List.cons_ne_nil name [])
    · cases hStat
  · cases hStat

theorem NetFs.kindLaw : NetFs.fs.KindLaw IsRootPath := by
  intro host path inode hStat
  simp only [NetFs.fs, NetFs.stat] at hStat
  unfold IsRootPath
  split at hStat
  · rename_i hPath
    rw [hPath]
    exact iff_of_true (isDir_of_dirMode hStat) rfl
  · rename_i name hPath
    rw [hPath]
    split at hStat
    · split at hStat
      · exact iff_of_false (not_isDir_of_fileMode hStat)
          (List.cons_ne_nil name [])
      · cases hStat
    · cases hStat
  · cases hStat

end Planten
