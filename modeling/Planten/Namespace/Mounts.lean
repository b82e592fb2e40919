import Planten.Runtime

/-
  The per-process namespace of the command-line tools: an
  ordered list of mount entries, kept as JSON in one file
  that every tool reads and overwrites.

  The JSON library is a parameter: how a namespace is
  printed, and what a text is read as.

  Key definitions include:
    * `Namespace`
    * `Namespace.ensureProcfs`
    * `Serde`
    * `Namespace.loadFromFile`
    * `Namespace.saveToFile`

  Key theorems include:
    * `Namespace.loadFromFile_saveToFile`
-/

------------------------------------------------------------
-- Mount Entries
------------------------------------------------------------

namespace Planten

inductive Mount where
| bind (path : String)
| union (paths : List String)
| p9 (addr path : String)
deriving DecidableEq, Repr

structure MountEntry where
  target : String
  mount : Mount
deriving DecidableEq, Repr

structure Namespace where
  mounts : List MountEntry
deriving DecidableEq, Repr

def PROCFS_TARGET : String :=
  "/proc"

def PROCFS_ADDR : String :=
  "127.0.0.1:5641"

def SRVFS_TARGET : String :=
  "/srv"

def SRVFS_ADDR : String :=
  "127.0.0.1:5652"

namespace Namespace

def new : Namespace :=
  ⟨[]⟩

def addMountEntry
    (ns : Namespace)
    (target : String)
    (mount : Mount) : Namespace :=
  ⟨ns.mounts ++ [⟨target, mount⟩]⟩

def bind
    (ns : Namespace)
    (new old : String) : Namespace :=
  ns.addMountEntry new (.bind old)

def union
    (ns : Namespace)
    (new old : String) : Namespace :=
  ns.addMountEntry new (.union [old])

def unionMulti
    (ns : Namespace)
    (new : String)
    (oldPaths : List String) : Namespace :=
  ns.addMountEntry new (.union oldPaths)

def p9
    (ns : Namespace)
    (new addr path : String) : Namespace :=
  ns.addMountEntry new (.p9 addr path)

def ensureProcfs (ns : Namespace) : Namespace :=
  if ns.mounts.any (fun entry =>
      entry.target = PROCFS_TARGET) then
    ns
  else
    ns.addMountEntry PROCFS_TARGET (.p9 PROCFS_ADDR "")

def ensureSrvfs (ns : Namespace) : Namespace :=
  if ns.mounts.any (fun entry =>
      entry.target = SRVFS_TARGET) then
    ns
  else
    ns.addMountEntry SRVFS_TARGET (.p9 SRVFS_ADDR "")

end Namespace

end Planten

------------------------------------------------------------
-- The Stored File
------------------------------------------------------------

namespace Planten

/- `serde_json::to_string_pretty` and `from_str`. -/
structure Serde where
  toStringPretty : Namespace → String
  fromStr : String → Option Namespace

namespace Serde

/- What is printed is read back. -/
def Reads (serde : Serde) : Prop :=
  ∀ ns, serde.fromStr (serde.toStringPretty ns) = some ns

end Serde

namespace Namespace

/- The file's contents after a save. -/
def saveToFile
    (serde : Serde)
    (ns : Namespace) : Bytes :=
  asBytes (serde.toStringPretty ns)

/- A missing file is an empty namespace, a bad one an error. -/
def loadFromFile
    (serde : Serde)
    (file : Option Bytes) : Option Namespace :=
  match file with
  | none => some new
  | some contents =>
      (fromUtf8 contents).bind serde.fromStr

/- The tools take an unreadable file for an empty namespace. -/
def loadOrNew
    (serde : Serde)
    (file : Option Bytes) : Namespace :=
  (loadFromFile serde file).getD new

end Namespace

end Planten

------------------------------------------------------------
-- Laws of Namespaces
------------------------------------------------------------

namespace Planten

namespace Namespace

@[simp] theorem mounts_new :
    new.mounts = [] :=
  rfl

/- An ensured mount is appended, if it is not there yet. -/
theorem mounts_ensureProcfs (ns : Namespace) :
    ns.mounts <+: ns.ensureProcfs.mounts := by
  unfold ensureProcfs
  split
  · exact List.prefix_rfl
  · exact List.prefix_append _ _

theorem mounts_ensureSrvfs (ns : Namespace) :
    ns.mounts <+: ns.ensureSrvfs.mounts := by
  unfold ensureSrvfs
  split
  · exact List.prefix_rfl
  · exact List.prefix_append _ _

/- A saved namespace is loaded as it was. -/
theorem loadFromFile_saveToFile
    {serde : Serde}
    (hReads : serde.Reads)
    (ns : Namespace) :
    loadFromFile serde (some (ns.saveToFile serde)) =
      some ns := by
  change (fromUtf8 (asBytes _)).bind serde.fromStr = _
  rw [fromUtf8_asBytes]
  exact hReads ns

theorem loadOrNew_saveToFile
    {serde : Serde}
    (hReads : serde.Reads)
    (ns : Namespace) :
    loadOrNew serde (some (ns.saveToFile serde)) = ns := by
  rw [loadOrNew, loadFromFile_saveToFile hReads]
  rfl

end Namespace

end Planten
