import Planten.RamFs.Inode

/-
  The file systems behind the pseudo servers.

  They hold no state of their own: every call reads the host,
  and may find it changed since the last time.  So a call is
  given the readings it will make, in their order.  The times
  it reads are given the same way; one before the epoch is a
  panic where an inode is made, and 0 elsewhere.

  The servers call `read` and `stat` only.  The calls that
  change a file system, which they never make, are left out.

  Key definitions include:
    * `Host`
    * `FsServer`
    * `Attrs.new`
    * `statAttrs`
-/

------------------------------------------------------------
-- File Systems over a Host
------------------------------------------------------------

namespace Planten

/- What the calls of one request read from the host. -/
structure Host (H : Type) where
  clock : Clock
  reading : Nat → H

/- The host as a call finds it after `n` readings. -/
def Host.later
    {H : Type}
    (host : Host H)
    (n : Nat) : Host H :=
  ⟨host.clock, fun i => host.reading (n + i)⟩

/- The trait `FsServer`, over the readings of a host. -/
structure FsServer (H : Type) where
  walk : Host H → String → Option (List String)
  open_ : Host H → String → Option Unit
  read : Host H → String → Option Bytes
  stat : Host H → String → Except Panic (Option Attrs)

/- `Inode::new`; a clock before the epoch panics. -/
def Attrs.new
    (name : String)
    (mode : UInt32)
    (uid gid : String)
    (now : SystemTime) : Except Panic Attrs :=
  if now < 0 then
    .error .unwrapFailed
  else
    .ok ⟨name, [], mode, uid, gid, asSecs now, asSecs now⟩

/- The mode of a directory of a pseudo file system. -/
def pseudoDirMode : UInt32 :=
  0o555 ||| 0x80000000

/-
  The inode a stat answers with.  Reading 0 of the clock is
  that of the call, and reading 1 that of `Inode::new`.
-/
def statAttrs
    (name : String)
    (mode : UInt32)
    (data : Bytes)
    (clock : Clock) : Except Panic (Option Attrs) := do
  let inode ← Attrs.new name mode "root" "root" (clock 1)
  pure (some
    { inode with
      data := data
      atime := asSecs (clock 0)
      mtime := asSecs (clock 0) })

/- A stat fails to make its inode only before the epoch. -/
theorem statAttrs_of_epoch
    {clock : Clock}
    (hEpoch : 0 ≤ clock 1)
    (name : String)
    (mode : UInt32)
    (data : Bytes) :
    statAttrs name mode data clock =
      .ok (some ⟨name, data, mode, "root", "root",
        asSecs (clock 0), asSecs (clock 0)⟩) := by
  rw [statAttrs, Attrs.new, if_neg (not_lt.mpr hEpoch)]
  rfl

end Planten
