import Planten.PseudoFs.Server

/-
  When a stat of a pseudo file system panics.

  A stat makes an inode for the node it finds, and making one
  reads the clock.  What is found depends on the other
  readings of the host only.

  Key definitions include:
    * `Host.atEpoch`
    * `FsServer.Finds`
    * `FsServer.StatLaw`

  Key theorems include:
    * `ProcFs.statLaw`, `SrvFs.statLaw`, `DevFs.statLaw`,
      `NetFs.statLaw`
-/

------------------------------------------------------------
-- Stats and the Clock
------------------------------------------------------------

namespace Planten

variable {H : Type}

/- The host with its clock at the epoch. -/
def Host.atEpoch (host : Host H) : Host H :=
  ⟨fun _ => 0, host.reading⟩

/- There is a node at the path, whatever the clock says. -/
def FsServer.Finds
    (fs : FsServer H)
    (host : Host H)
    (path : String) : Prop :=
  ∃ inode, fs.stat host.atEpoch path = .ok (some inode)

/-
  A stat that finds a node makes its inode, and panics when
  reading `k` of the clock is before the epoch.
-/
structure FsServer.StatLaw
    (fs : FsServer H)
    (k : Nat) : Prop where
  missing :
    ∀ host path,
      ¬ fs.Finds host path → fs.stat host path = .ok none
  found :
    ∀ host path,
      fs.Finds host path →
        0 ≤ host.clock k →
          ∃ inode, fs.stat host path = .ok (some inode)
  panics :
    ∀ host path,
      fs.Finds host path →
        host.clock k < 0 →
          fs.stat host path = .error .unwrapFailed

namespace FsServer.StatLaw

variable {fs : FsServer H} {k : Nat} {host : Host H}
variable {path : String}

/- Only what is found is answered with an inode. -/
theorem finds_of_some
    (hLaw : fs.StatLaw k)
    {inode : Attrs}
    (hStat : fs.stat host path = .ok (some inode)) :
    fs.Finds host path ∧ 0 ≤ host.clock k := by
  by_cases hFinds : fs.Finds host path
  · refine ⟨hFinds, ?_⟩
    by_contra hBefore
    have hPanics :=
      hLaw.panics host path hFinds (not_le.mp hBefore)
    cases hStat.symm.trans hPanics
  · cases hStat.symm.trans (hLaw.missing host path hFinds)

theorem not_finds_of_none
    (hLaw : fs.StatLaw k)
    (hStat : fs.stat host path = .ok none) :
    ¬ fs.Finds host path := by
  intro hFinds
  by_cases hClock : 0 ≤ host.clock k
  · rcases hLaw.found host path hFinds hClock with
      ⟨inode, hSome⟩
    cases hStat.symm.trans hSome
  · have hPanics :=
      hLaw.panics host path hFinds (not_le.mp hClock)
    cases hStat.symm.trans hPanics

theorem finds_of_error
    (hLaw : fs.StatLaw k)
    {cause : Panic}
    (hStat : fs.stat host path = .error cause) :
    fs.Finds host path ∧ host.clock k < 0 := by
  by_cases hFinds : fs.Finds host path
  · refine ⟨hFinds, ?_⟩
    by_contra hClock
    rcases hLaw.found host path hFinds (not_lt.mp hClock)
      with ⟨inode, hSome⟩
    cases hStat.symm.trans hSome
  · cases hStat.symm.trans (hLaw.missing host path hFinds)

end FsServer.StatLaw

/-
  A way to answer a stat, given a clock, that fails exactly
  when reading `k` is before the epoch.
-/
structure MakesInode
    (k : Nat)
    (make : Clock → Except Panic (Option Attrs)) : Prop where
  ok :
    ∀ clock,
      0 ≤ clock k → ∃ inode, make clock = .ok (some inode)
  error :
    ∀ clock,
      clock k < 0 → make clock = .error .unwrapFailed

/-
  A file system whose stats find nothing, or make an inode,
  obeys the law.
-/
theorem statLaw_of_makesInode
    {fs : FsServer H}
    {k : Nat}
    (hStat :
      ∀ reading path,
        (∀ clock, fs.stat ⟨clock, reading⟩ path = .ok none) ∨
          MakesInode k
            (fun clock => fs.stat ⟨clock, reading⟩ path)) :
    fs.StatLaw k := by
  constructor
  · intro host path hMissing
    rcases hStat host.reading path with hNone | hMakes
    · exact hNone host.clock
    · exact absurd (hMakes.ok (fun _ => 0) (le_refl _))
        hMissing
  · intro host path hFinds hClock
    rcases hStat host.reading path with hNone | hMakes
    · rcases hFinds with ⟨inode, hFound⟩
      cases (hNone (fun _ => 0)).symm.trans hFound
    · exact hMakes.ok host.clock hClock
  · intro host path hFinds hBefore
    rcases hStat host.reading path with hNone | hMakes
    · rcases hFinds with ⟨inode, hFound⟩
      cases (hNone (fun _ => 0)).symm.trans hFound
    · exact hMakes.error host.clock hBefore

theorem makesInode_statAttrs
    (name : String)
    (mode : UInt32)
    (data : Bytes) :
    MakesInode 1 (statAttrs name mode data) := by
  constructor
  · intro clock hClock
    exact ⟨_, statAttrs_of_epoch hClock name mode data⟩
  · intro clock hBefore
    rw [statAttrs, Attrs.new, if_pos hBefore]
    rfl

theorem DevFs.makesInode_makeInode
    (name : String)
    (mode : UInt32) :
    MakesInode 0 (DevFs.makeInode name mode) := by
  constructor
  · intro clock hClock
    rw [DevFs.makeInode, Attrs.new,
      if_neg (not_lt.mpr hClock)]
    exact ⟨_, rfl⟩
  · intro clock hBefore
    rw [DevFs.makeInode, Attrs.new, if_pos hBefore]
    rfl

end Planten

------------------------------------------------------------
-- The Four File Systems
------------------------------------------------------------

namespace Planten

theorem DevFs.statLaw : DevFs.fs.StatLaw 0 := by
  apply statLaw_of_makesInode
  intro reading path
  simp only [DevFs.fs, DevFs.stat]
  split
  · exact Or.inr (DevFs.makesInode_makeInode _ _)
  · split
    · exact Or.inr (DevFs.makesInode_makeInode _ _)
    · exact Or.inl (fun _ => rfl)
  · exact Or.inl (fun _ => rfl)

theorem NetFs.statLaw : NetFs.fs.StatLaw 1 := by
  apply statLaw_of_makesInode
  intro reading path
  simp only [NetFs.fs, NetFs.stat]
  split
  · exact Or.inr (makesInode_statAttrs _ _ _)
  · split
    · split
      · exact Or.inr (makesInode_statAttrs _ _ _)
      · exact Or.inl (fun _ => rfl)
    · exact Or.inl (fun _ => rfl)
  · exact Or.inl (fun _ => rfl)

theorem SrvFs.statLaw : SrvFs.fs.StatLaw 1 := by
  apply statLaw_of_makesInode
  intro reading path
  have hRead (clock : Clock) :
      SrvFs.read ⟨clock, reading⟩ path =
        SrvFs.read ⟨fun _ => 0, reading⟩ path :=
    rfl
  simp only [SrvFs.fs, SrvFs.stat, hRead]
  split
  · exact Or.inr (makesInode_statAttrs _ _ _)
  · split
    · exact Or.inr (makesInode_statAttrs _ _ _)
    · exact Or.inl (fun _ => rfl)
  · split
    · split
      · exact Or.inr (makesInode_statAttrs _ _ _)
      · exact Or.inl (fun _ => rfl)
    · exact Or.inl (fun _ => rfl)
  · exact Or.inl (fun _ => rfl)

theorem ProcFs.statLaw
    {Pid : Type}
    [DecidableEq Pid]
    (pids : PidText Pid) :
    (ProcFs.fs pids).StatLaw 1 := by
  apply statLaw_of_makesInode
  intro reading path
  have hRead (clock : Clock) :
      ProcFs.read pids
          ((⟨clock, reading⟩ : Host (ProcTable Pid)).later 1)
          path =
        ProcFs.read pids
          ((⟨fun _ => 0, reading⟩ :
            Host (ProcTable Pid)).later 1) path :=
    rfl
  simp only [ProcFs.fs, ProcFs.stat, hRead]
  split
  · exact Or.inr (makesInode_statAttrs _ _ _)
  · split
    · exact Or.inr (makesInode_statAttrs _ _ _)
    · exact Or.inl (fun _ => rfl)
  · split
    · split
      · exact Or.inr (makesInode_statAttrs _ _ _)
      · split
        · exact Or.inr (makesInode_statAttrs _ _ _)
        · exact Or.inl (fun _ => rfl)
      · exact Or.inl (fun _ => rfl)
    · exact Or.inl (fun _ => rfl)
  · split
    · split
      · exact Or.inr (makesInode_statAttrs _ _ _)
      · exact Or.inl (fun _ => rfl)
    · exact Or.inl (fun _ => rfl)
  · exact Or.inl (fun _ => rfl)

end Planten
