import Planten.NineP.Codec
import Planten.RamFs.Inode
import Mathlib.Data.List.Sort
import Mathlib.Data.String.Basic

/-
  The operations of the RAM file system.

  Each operation walks from the root along the components of
  a path, as a mutable pointer does: the work on the node
  reached is a function of that node, and `KeyTree.descend`
  writes the walked nodes back.  A file system carries the
  fact that no directory stores a key twice, which its hash
  tables guarantee.

  Key definitions include:
    * `RamFs`
    * `RamFs.new`
    * `RamFs.stat`, `RamFs.readFile`, `RamFs.listDir`
    * `RamFs.createFile`, `RamFs.createDir`
    * `RamFs.write`, `RamFs.remove`
    * `RamFs.wstatFromStat`
-/

------------------------------------------------------------
-- Work on One Node
------------------------------------------------------------

namespace Planten

namespace Inode

/- `data[start..stop].copy_from_slice(buf)`. -/
def copySlice
    (data : Bytes)
    (start stop : Nat)
    (buf : Bytes) : Except Panic Bytes :=
  if start ≤ stop ∧ stop ≤ data.length ∧
      buf.length = stop - start then
    .ok (data.take start ++ buf ++ data.drop stop)
  else
    .error .sliceOutOfRange

/- The data of a node after a buffer is written over it. -/
def overlay
    (data : Bytes)
    (start : Nat)
    (buf : Bytes) : Except Panic Bytes := do
  let stop ← usizeAdd .dev start buf.length
  let grown ←
    if data.length < stop then
      resize data stop
    else
      .ok data
  copySlice grown start stop buf

/- Write into the node reached. -/
def writeNode
    (offset : UInt64)
    (buf : Bytes)
    (now : SystemTime)
    (node : Inode) :
    Except Panic (Inode × Option UInt32) := do
  let data ← overlay node.val.data offset.toNat buf
  .ok (node.withVal
    { node.val with data := data, mtime := asSecs now },
    some (UInt32.ofNat buf.length))

/- Remove an entry from the directory reached. -/
def removeEntry
    (name : String)
    (current : Inode) :
    Except Panic (Inode × Option Unit) :=
  match current.child? name with
  | none => .ok (current, none)
  | some _ => .ok (current.removeChild name, some ())

/-
  The mode, time and group of a node after a stat: all ones
  and the empty string leave a field alone.  The root takes
  nothing else.
-/
def applyRootStat
    (stat : Stat)
    (attrs : Attrs) : Attrs :=
  { attrs with
    mode :=
      if stat.mode ≠ 0xffffffff then
        stat.mode
      else
        attrs.mode
    mtime :=
      if stat.mtime ≠ 0xffffffff then
        stat.mtime
      else
        attrs.mtime
    gid := if stat.gid ≠ "" then stat.gid else attrs.gid }

/- The data of a node after a stat. -/
def statData
    (stat : Stat)
    (data : Bytes) : Except Panic Bytes :=
  if stat.length ≠ 0xffffffffffffffff then
    resize data stat.length.toNat
  else
    .ok data

/- The fields of a node other than the root after a stat. -/
def applyStat
    (stat : Stat)
    (attrs : Attrs) : Except Panic Attrs := do
  let data ← statData stat attrs.data
  .ok { applyRootStat stat attrs with data := data }

/-
  Apply a stat to an entry of the directory reached.  The
  entry is changed on a copy; a rename over another entry
  fails before the copy is stored.
-/
def wstatEntry
    (stat : Stat)
    (filename : String)
    (current : Inode) :
    Except Panic (Inode × Option Unit) :=
  match current.child? filename with
  | none => .ok (current, none)
  | some inode => do
      let attrs ← applyStat stat inode.val
      if stat.name ≠ "" ∧ stat.name ≠ filename then
        match current.child? stat.name with
        | some _ => .ok (current, none)
        | none =>
            .ok ((current.removeChild filename).setChild
              stat.name
              (inode.withVal
                { attrs with name := stat.name }),
              some ())
      else
        .ok (current.setChild filename
          (inode.withVal attrs), some ())

/-
  `children.entry(component).or_insert_with(..)`: the child
  under a component, or a fresh directory.
-/
def entryOrDir
    (current : Inode)
    (component : String)
    (now : SystemTime) : Except Panic Inode :=
  match current.child? component with
  | some child => .ok child
  | none => Inode.new component dirMode now

/-
  Walk down the components from index `i`, creating missing
  directories, and put a fresh file under the last one.
-/
def createFileFrom
    (clock : Clock)
    (data : Bytes) :
    Nat → Inode → List String → Except Panic Inode
| _, current, [] => .ok current
| i, current, [component] => do
    let file ← Inode.new component fileMode (clock i)
    .ok (current.setChild component
      (file.withVal { file.val with data := data }))
| i, current, component :: rest => do
    let child ← entryOrDir current component (clock i)
    let child ← createFileFrom clock data (i + 1) child rest
    .ok (current.setChild component child)

/- Walk down the components, creating missing directories. -/
def createDirFrom
    (clock : Clock) :
    Nat → Inode → List String → Except Panic Inode
| _, current, [] => .ok current
| i, current, component :: rest => do
    let child ← entryOrDir current component (clock i)
    let child ← createDirFrom clock (i + 1) child rest
    .ok (current.setChild component child)

end Inode

end Planten

------------------------------------------------------------
-- Unique Keys Are Kept
------------------------------------------------------------

namespace Planten

namespace Inode

open KeyTree (UniqueKeys)

/- A fresh inode is a leaf with the fields asked for. -/
theorem new_eq_ok
    {name : String}
    {mode : UInt32}
    {now : SystemTime}
    {inode : Inode}
    (hNew : Inode.new name mode now = .ok inode) :
    inode = .leaf (freshAttrs name mode now) := by
  unfold Inode.new at hNew
  split at hNew
  · cases hNew
  · exact (Except.ok.inj hNew).symm

theorem new_uniqueKeys
    {name : String}
    {mode : UInt32}
    {now : SystemTime}
    {inode : Inode}
    (hNew : Inode.new name mode now = .ok inode) :
    UniqueKeys inode := by
  rw [new_eq_ok hNew]
  exact UniqueKeys.leaf _

theorem writeNode_uniqueKeys
    {offset : UInt64}
    {buf : Bytes}
    {now : SystemTime}
    {node : Inode}
    {r : Inode × Option UInt32}
    (hUnique : UniqueKeys node)
    (hOk : writeNode offset buf now node = .ok r) :
    UniqueKeys r.1 := by
  unfold writeNode at hOk
  cases hData : overlay node.val.data offset.toNat buf with
  | error e =>
      rw [hData] at hOk
      cases hOk
  | ok data =>
      rw [hData] at hOk
      cases hOk
      exact hUnique.withVal _

theorem removeEntry_uniqueKeys
    {name : String}
    {current : Inode}
    {r : Inode × Option Unit}
    (hUnique : UniqueKeys current)
    (hOk : removeEntry name current = .ok r) :
    UniqueKeys r.1 := by
  unfold removeEntry at hOk
  split at hOk
  · cases hOk
    exact hUnique
  · cases hOk
    exact hUnique.removeChild name

theorem wstatEntry_uniqueKeys
    {stat : Stat}
    {filename : String}
    {current : Inode}
    {r : Inode × Option Unit}
    (hUnique : UniqueKeys current)
    (hOk : wstatEntry stat filename current = .ok r) :
    UniqueKeys r.1 := by
  unfold wstatEntry at hOk
  split at hOk
  · cases hOk
    exact hUnique
  · rename_i inode hChild
    have hInode := hUnique.child hChild
    cases hAttrs : applyStat stat inode.val with
    | error e =>
        rw [hAttrs] at hOk
        cases hOk
    | ok attrs =>
        simp only [hAttrs, bind, Except.bind] at hOk
        split at hOk
        · split at hOk
          · cases hOk
            exact hUnique
          · cases hOk
            exact (hUnique.removeChild filename).setChild _
              (hInode.withVal _)
        · cases hOk
          exact hUnique.setChild _ (hInode.withVal _)

end Inode

end Planten

------------------------------------------------------------
-- Creating Walks Are Growth
------------------------------------------------------------

namespace Planten

namespace Inode

/-
  The fields of the directory created at the end of a path
  that starts at component `i`.
-/
def freshDir
    (clock : Clock)
    (i : Nat)
    (p : List String) : Attrs :=
  freshAttrs (p.getLastD "") dirMode
    (clock (i + p.length - 1))

/- The fields of the file created at the end of a path. -/
def freshFile
    (clock : Clock)
    (data : Bytes)
    (i : Nat)
    (p : List String) : Attrs :=
  { freshAttrs (p.getLastD "") fileMode
      (clock (i + p.length - 1)) with
    data := data }

/- One key further down the walk is one index later. -/
theorem freshDir_cons
    (clock : Clock)
    (i : Nat)
    (k : String)
    {p : List String}
    (hNonempty : p ≠ []) :
    freshDir clock i (k :: p) =
      freshDir clock (i + 1) p := by
  cases p with
  | nil =>
      exact (hNonempty rfl).elim
  | cons k' p =>
      simp only [freshDir, List.getLastD_cons,
        List.length_cons]
      congr 2
      omega

theorem freshFile_cons
    (clock : Clock)
    (data : Bytes)
    (i : Nat)
    (k : String)
    {p : List String}
    (hNonempty : p ≠ []) :
    freshFile clock data i (k :: p) =
      freshFile clock data (i + 1) p := by
  cases p with
  | nil =>
      exact (hNonempty rfl).elim
  | cons k' p =>
      have hIndex :
          i + (k :: k' :: p).length - 1 =
            i + 1 + (k' :: p).length - 1 := by
        simp only [List.length_cons]
        omega
      rw [freshFile, hIndex]
      rfl

theorem entryOrDir_eq_ok
    {current child : Inode}
    {component : String}
    {now : SystemTime}
    (hOk : entryOrDir current component now = .ok child) :
    child =
      (current.child? component).getD
        (.leaf (freshAttrs component dirMode now)) := by
  unfold entryOrDir at hOk
  split at hOk
  · rename_i hChild
    cases hOk
    rw [hChild]
    rfl
  · rename_i hChild
    rw [hChild]
    exact new_eq_ok hOk

/- A walk that creates a directory grows its path. -/
theorem createDirFrom_eq_ok
    {clock : Clock}
    {i : Nat}
    {current r : Inode}
    {comps : List String}
    (hOk : createDirFrom clock i current comps = .ok r) :
    r = KeyTree.grow (freshDir clock i) current comps := by
  induction comps generalizing i current r with
  | nil =>
      cases hOk
      rfl
  | cons component rest ih =>
      rw [createDirFrom, bind_eq_ok_iff] at hOk
      rcases hOk with ⟨child, hChild, hOk⟩
      rw [bind_eq_ok_iff] at hOk
      rcases hOk with ⟨child', hTail, hOk⟩
      cases hOk
      have hSame :=
        KeyTree.grow_congr
          (fun p => freshDir clock i (component :: p)) _
          (fun p hp => freshDir_cons clock i component hp)
          ((current.child? component).getD
            (.leaf (freshDir clock i [component])))
          rest
      rw [KeyTree.grow, hSame, ih hTail,
        entryOrDir_eq_ok hChild]
      rfl

/- A walk that creates a file grafts it at its path. -/
theorem createFileFrom_eq_ok
    {clock : Clock}
    {data : Bytes}
    {i : Nat}
    {current r : Inode}
    {comps : List String}
    (hNonempty : comps ≠ [])
    (hOk :
      createFileFrom clock data i current comps = .ok r) :
    r =
      KeyTree.graft (freshDir clock i)
        (.leaf (freshFile clock data i comps)) current
        comps := by
  induction comps generalizing i current r with
  | nil =>
      exact (hNonempty rfl).elim
  | cons component rest ih =>
      cases rest with
      | nil =>
          rw [createFileFrom, bind_eq_ok_iff] at hOk
          rcases hOk with ⟨file, hFile, hOk⟩
          cases hOk
          rw [new_eq_ok hFile]
          rfl
      | cons next rest =>
          rw [createFileFrom, bind_eq_ok_iff] at hOk
          rcases hOk with ⟨child, hChild, hOk⟩
          rw [bind_eq_ok_iff] at hOk
          rcases hOk with ⟨child', hTail, hOk⟩
          cases hOk
          have hFile :=
            freshFile_cons clock data i component
              (List.cons_ne_nil next rest)
          have hSame :=
            KeyTree.graft_congr
              (fun p => freshDir clock i (component :: p)) _
              (fun p hp => freshDir_cons clock i component hp)
              (.leaf (freshFile clock data i
                (component :: next :: rest)))
              ((current.child? component).getD
                (.leaf (freshDir clock i [component])))
              (next :: rest)
          rw [KeyTree.graft, hSame, hFile,
            ih (List.cons_ne_nil next rest) hTail,
            entryOrDir_eq_ok hChild]
          rfl
          · intro hNil
            cases hNil

theorem createDirFrom_uniqueKeys
    {clock : Clock}
    {i : Nat}
    {current r : Inode}
    {comps : List String}
    (hUnique : KeyTree.UniqueKeys current)
    (hOk : createDirFrom clock i current comps = .ok r) :
    KeyTree.UniqueKeys r := by
  rw [createDirFrom_eq_ok hOk]
  exact hUnique.grow _ comps

theorem createFileFrom_uniqueKeys
    {clock : Clock}
    {data : Bytes}
    {i : Nat}
    {current r : Inode}
    {comps : List String}
    (hUnique : KeyTree.UniqueKeys current)
    (hOk :
      createFileFrom clock data i current comps = .ok r) :
    KeyTree.UniqueKeys r := by
  cases comps with
  | nil =>
      cases hOk
      exact hUnique
  | cons component rest =>
      rw [createFileFrom_eq_ok
        (List.cons_ne_nil component rest) hOk]
      exact hUnique.graft _ (KeyTree.UniqueKeys.leaf _) _

end Inode

end Planten

------------------------------------------------------------
-- The File System
------------------------------------------------------------

namespace Planten

/- A file system: a root, with every key stored once. -/
@[ext] structure RamFs where
  root : Inode
  uniqueKeys : root.UniqueKeys

namespace RamFs

/- Run an operation on the root of a file system. -/
def update
    {β : Type}
    (fs : RamFs)
    (op : Inode → Except Panic (Inode × β))
    (hKeeps : ∀ t r,
      t.UniqueKeys → op t = .ok r → r.1.UniqueKeys) :
    Except Panic (RamFs × β) :=
  match hOp : op fs.root with
  | .ok r => .ok (⟨r.1, hKeeps _ r fs.uniqueKeys hOp⟩, r.2)
  | .error e => .error e

theorem update_eq_ok_iff
    {β : Type}
    {fs fs' : RamFs}
    {op : Inode → Except Panic (Inode × β)}
    {hKeeps : ∀ t r,
      t.UniqueKeys → op t = .ok r → r.1.UniqueKeys}
    {b : β} :
    fs.update op hKeeps = .ok (fs', b) ↔
      op fs.root = .ok (fs'.root, b) := by
  unfold update
  split
  · rename_i r hOp
    constructor
    · intro hEq
      cases hEq
      exact hOp
    · intro hEq
      have hPair : r = (fs'.root, b) :=
        Except.ok.inj (hOp.symm.trans hEq)
      subst hPair
      rfl
  · rename_i e hOp
    constructor
    · intro hEq
      cases hEq
    · intro hEq
      cases hOp.symm.trans hEq

theorem update_eq_error_iff
    {β : Type}
    {fs : RamFs}
    {op : Inode → Except Panic (Inode × β)}
    {hKeeps : ∀ t r,
      t.UniqueKeys → op t = .ok r → r.1.UniqueKeys}
    {e : Panic} :
    fs.update op hKeeps = .error e ↔
      op fs.root = .error e := by
  unfold update
  split
  · rename_i r hOp
    constructor
    · intro hEq
      cases hEq
    · intro hEq
      cases hOp.symm.trans hEq
  · rename_i e' hOp
    constructor
    · intro hEq
      cases hEq
      exact hOp
    · intro hEq
      cases hOp.symm.trans hEq
      rfl

/- `RamFs::new`. -/
def new (now : SystemTime) : Except Panic RamFs :=
  match hNew : Inode.new "/" dirMode now with
  | .ok root => .ok ⟨root, Inode.new_uniqueKeys hNew⟩
  | .error e => .error e

/- `RamFs::stat`: the node at a path, with its subtree. -/
def stat
    (fs : RamFs)
    (path : String) : Option Inode :=
  fs.root.subtree? (components path)

/- `RamFs::read_file`: the data at a path, but not the root. -/
def readFile
    (fs : RamFs)
    (path : String) : Option Bytes :=
  match components path with
  | [] => none
  | comps =>
      (fs.root.subtree? comps).map (fun node => node.val.data)

/- `RamFs::list_dir`: the sorted keys of a node. -/
def listDir
    (fs : RamFs)
    (path : String) : Option (List String) :=
  (fs.root.subtree? (components path)).map (fun node =>
    (KeyMap.keys node.children).insertionSort (· ≤ ·))

/- `RamFs::create_file`. -/
def createFile
    (fs : RamFs)
    (path : String)
    (data : Bytes)
    (clock : Clock) : Except Panic (RamFs × Unit) :=
  fs.update
    (fun root =>
      (Inode.createFileFrom clock data 0 root
        (components path)).map (fun root => (root, ())))
    (by
      intro t r hUnique hOk
      cases hRun :
          Inode.createFileFrom clock data 0 t
            (components path) with
      | error e =>
          rw [hRun] at hOk
          cases hOk
      | ok t' =>
          rw [hRun] at hOk
          cases hOk
          exact Inode.createFileFrom_uniqueKeys hUnique hRun)

/- `RamFs::create_dir`. -/
def createDir
    (fs : RamFs)
    (path : String)
    (clock : Clock) : Except Panic (RamFs × Unit) :=
  fs.update
    (fun root =>
      (Inode.createDirFrom clock 0 root
        (components path)).map (fun root => (root, ())))
    (by
      intro t r hUnique hOk
      cases hRun :
          Inode.createDirFrom clock 0 t
            (components path) with
      | error e =>
          rw [hRun] at hOk
          cases hOk
      | ok t' =>
          rw [hRun] at hOk
          cases hOk
          exact Inode.createDirFrom_uniqueKeys hUnique hRun)

/- `RamFs::write`: the root cannot be written. -/
def write
    (fs : RamFs)
    (path : String)
    (offset : UInt64)
    (buf : Bytes)
    (clock : Clock) :
    Except Panic (RamFs × Option UInt32) :=
  match components path with
  | [] => .ok (fs, none)
  | comps =>
      fs.update
        (fun root =>
          KeyTree.descend none
            (Inode.writeNode offset buf (clock 0)) root
            comps)
        (fun _ _ hUnique hOk =>
          hUnique.descend
            (fun _ _ hNode => Inode.writeNode_uniqueKeys hNode)
            hOk)

/- `RamFs::remove`: the root cannot be removed. -/
def remove
    (fs : RamFs)
    (path : String) : Except Panic (RamFs × Option Unit) :=
  match (components path).getLast? with
  | none => .ok (fs, none)
  | some filename =>
      fs.update
        (fun root =>
          KeyTree.descend none
            (Inode.removeEntry filename) root
            (components path).dropLast)
        (fun _ _ hUnique hOk =>
          hUnique.descend
            (fun _ _ hNode =>
              Inode.removeEntry_uniqueKeys hNode)
            hOk)

/- `RamFs::wstat_from_stat`. -/
def wstatFromStat
    (fs : RamFs)
    (path : String)
    (stat : Stat) : Except Panic (RamFs × Option Unit) :=
  match (components path).getLast? with
  | none =>
      .ok (⟨fs.root.withVal
        (Inode.applyRootStat stat fs.root.val),
        fs.uniqueKeys.withVal _⟩, some ())
  | some filename =>
      fs.update
        (fun root =>
          KeyTree.descend none
            (Inode.wstatEntry stat filename) root
            (components path).dropLast)
        (fun _ _ hUnique hOk =>
          hUnique.descend
            (fun _ _ hNode =>
              Inode.wstatEntry_uniqueKeys hNode)
            hOk)

end RamFs

end Planten
