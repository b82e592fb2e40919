import Planten.Library.ChildKeys
import Planten.RamFs.Operations

/-
  The flat view of the RAM file system.

  `FlatFs` is what the file system is for: a map from key
  paths to node fields.  Its operations say what each
  request means, and the theorems below say that the walks
  over the tree compute exactly these, panics included.

  Key definitions include:
    * `RamFs.view`
    * `FlatFs.createFile`, `FlatFs.createDir`
    * `FlatFs.write`, `FlatFs.remove`
    * `FlatFs.wstatFromStat`

  Key theorems include:
    * `RamFs.stat_eq_none_iff`, `RamFs.entries_stat`
    * `RamFs.readFile_eq`, `RamFs.listDir_eq_some`
    * `RamFs.view_createFile`, `RamFs.view_createDir`
    * `RamFs.view_write`, `RamFs.view_remove`
    * `RamFs.view_wstatFromStat`
    * `Inode.overlay_eq`
    * `RamFs.remove_eq_none`
    * `RamFs.wstatFromStat_eq_none`
-/

------------------------------------------------------------
-- Flat File Systems
------------------------------------------------------------

namespace Planten

/- A map from key paths to node fields. -/
abbrev FlatFs :=
  PathMap String Attrs

namespace FlatFs

/-
  A node missing on the way to `p` would be created with a
  clock reading from before the epoch.
-/
def CreatesBeforeEpoch
    (m : FlatFs)
    (clock : Clock)
    (p : List String) : Prop :=
  ∃ i < p.length, m (p.take (i + 1)) = none ∧ clock i < 0

instance
    (m : FlatFs)
    (clock : Clock)
    (p : List String) :
    Decidable (m.CreatesBeforeEpoch clock p) := by
  unfold CreatesBeforeEpoch
  infer_instance

/-
  A fresh file takes the place of whatever was at the path;
  missing ancestors become directories.
-/
def createFile
    (m : FlatFs)
    (p : List String)
    (data : Bytes)
    (clock : Clock) : Except Panic (FlatFs × Unit) :=
  if p = [] then
    .ok (m, ())
  else if m.CreatesBeforeEpoch clock p.dropLast ∨
      clock (p.length - 1) < 0 then
    .error .unwrapFailed
  else
    .ok ((m.fill (Inode.freshDir clock 0) p.dropLast).plant
      p (PathMap.single (Inode.freshFile clock data 0 p)),
      ())

/- Missing nodes of the path become directories. -/
def createDir
    (m : FlatFs)
    (p : List String)
    (clock : Clock) : Except Panic (FlatFs × Unit) :=
  if m.CreatesBeforeEpoch clock p then
    .error .unwrapFailed
  else
    .ok (m.fill (Inode.freshDir clock 0) p, ())

/- The data and the time of one node change. -/
def write
    (m : FlatFs)
    (p : List String)
    (offset : UInt64)
    (buf : Bytes)
    (clock : Clock) :
    Except Panic (FlatFs × Option UInt32) :=
  if p = [] then
    .ok (m, none)
  else
    match m p with
    | none => .ok (m, none)
    | some attrs => do
        let data ←
          Inode.overlay attrs.data offset.toNat buf
        .ok (m.assign p
          { attrs with
            data := data, mtime := asSecs (clock 0) },
          some (UInt32.ofNat buf.length))

/- A node goes, with everything below it. -/
def remove
    (m : FlatFs)
    (p : List String) : FlatFs × Option Unit :=
  if p = [] ∨ m p = none then
    (m, none)
  else
    (m.prune p, some ())

/-
  The fields of one node change; a new name moves the node
  and what is below it, unless the name is taken.
-/
def wstatFromStat
    (m : FlatFs)
    (p : List String)
    (stat : Stat) :
    Except Panic (FlatFs × Option Unit) :=
  match m p with
  | none => .ok (m, none)
  | some attrs =>
      match p.getLast? with
      | none =>
          .ok (m.assign p (Inode.applyRootStat stat attrs),
            some ())
      | some filename => do
          let attrs ← Inode.applyStat stat attrs
          if stat.name ≠ "" ∧ stat.name ≠ filename then
            match m (p.dropLast ++ [stat.name]) with
            | some _ => .ok (m, none)
            | none =>
                .ok (m.relabel p.dropLast filename stat.name
                  { attrs with name := stat.name },
                  some ())
          else
            .ok (m.assign p attrs, some ())

end FlatFs

/- The map of a file system. -/
def RamFs.view (fs : RamFs) : FlatFs :=
  fs.root.entries

/- The map of the outcome of an operation. -/
def RamFs.viewResult
    {β : Type}
    (r : Except Panic (RamFs × β)) :
    Except Panic (FlatFs × β) :=
  r.map (fun r => (r.1.view, r.2))

end Planten

------------------------------------------------------------
-- Reading Operations
------------------------------------------------------------

namespace Planten

namespace RamFs

theorem view_closed (fs : RamFs) :
    fs.view.Closed :=
  KeyTree.entries_closed fs.root

theorem view_nil (fs : RamFs) :
    fs.view [] = some fs.root.val := rfl

/- A node is found exactly when its path is in the map. -/
theorem stat_eq_none_iff
    (fs : RamFs)
    (path : String) :
    fs.stat path = none ↔
      fs.view (components path) = none :=
  (KeyTree.entries_eq_none_iff _ _).symm

theorem stat_map_val
    (fs : RamFs)
    (path : String) :
    (fs.stat path).map KeyTree.val =
      fs.view (components path) := rfl

theorem view_of_stat
    {fs : RamFs}
    {path : String}
    {inode : Inode}
    (hStat : fs.stat path = some inode) :
    fs.view (components path) = some inode.val := by
  rw [← stat_map_val, hStat]
  rfl

/- The node found is the branch of the map at its path. -/
theorem entries_stat
    {fs : RamFs}
    {path : String}
    {inode : Inode}
    (hStat : fs.stat path = some inode) :
    inode.entries = fs.view.branch (components path) :=
  KeyTree.entries_of_subtree? hStat

/- Reading gives the data at a path other than the root. -/
theorem readFile_eq
    (fs : RamFs)
    {path : String}
    (hNonempty : components path ≠ []) :
    fs.readFile path =
      (fs.view (components path)).map Attrs.data := by
  unfold readFile
  split
  · contradiction
  · rw [view, KeyTree.entries, Option.map_map]
    rfl

/-
  Listing gives the strictly ascending last components of
  the paths one longer.
-/
theorem listDir_eq_some
    {fs : RamFs}
    {path : String}
    {names : List String}
    (hList : fs.listDir path = some names) :
    names.Pairwise (· < ·) ∧
      ∀ k, k ∈ names ↔
        (fs.view (components path ++ [k])).isSome := by
  simp only [listDir, Option.map_eq_some_iff] at hList
  rcases hList with ⟨node, hSub, rfl⟩
  have hPerm :=
    List.perm_insertionSort (· ≤ ·)
      (KeyMap.keys node.children)
  constructor
  · have hNodup :
        ((KeyMap.keys node.children).insertionSort
          (· ≤ ·)).Nodup :=
      hPerm.nodup_iff.mpr
        (fs.uniqueKeys.subtree hSub).nodup
    have hSorted :=
      List.pairwise_insertionSort (· ≤ ·)
        (KeyMap.keys node.children)
    exact (hSorted.and hNodup).imp
      (fun hBoth => lt_of_le_of_ne hBoth.1 hBoth.2)
  · intro k
    rw [hPerm.mem_iff]
    exact KeyTree.mem_keys_iff_entries hSub k

/- The keys that are listed are those of the children. -/
theorem childKeys_view
    {fs : RamFs}
    {path : String}
    {names : List String}
    (hList : fs.listDir path = some names) :
    fs.view.childKeys (components path) = names := by
  rcases listDir_eq_some hList with ⟨hAscending, hMem⟩
  exact PathMap.childKeys_eq ⟨hAscending, hMem⟩

theorem listDir_eq_none_iff
    (fs : RamFs)
    (path : String) :
    fs.listDir path = none ↔
      fs.view (components path) = none := by
  rw [listDir, Option.map_eq_none_iff]
  exact fs.stat_eq_none_iff path

end RamFs

end Planten

------------------------------------------------------------
-- Creating Walks
------------------------------------------------------------

namespace Planten

namespace Inode

theorem new_eq_error_iff
    {name : String}
    {mode : UInt32}
    {now : SystemTime}
    {e : Panic} :
    Inode.new name mode now = .error e ↔
      now < 0 ∧ e = .unwrapFailed := by
  unfold Inode.new
  split
  · rename_i hBefore
    constructor
    · intro hEq
      cases hEq
      exact ⟨hBefore, rfl⟩
    · rintro ⟨_, rfl⟩
      rfl
  · rename_i hAfter
    constructor
    · intro hEq
      cases hEq
    · rintro ⟨hBefore, _⟩
      exact (hAfter hBefore).elim

theorem entryOrDir_eq_error_iff
    {current : Inode}
    {component : String}
    {now : SystemTime}
    {e : Panic} :
    entryOrDir current component now = .error e ↔
      current.child? component = none ∧ now < 0 ∧
        e = .unwrapFailed := by
  unfold entryOrDir
  split
  · rename_i hChild
    constructor
    · intro hEq
      cases hEq
    · rintro ⟨hNone, _⟩
      cases hChild.symm.trans hNone
  · rename_i hChild
    rw [new_eq_error_iff]
    exact ⟨fun hBefore => ⟨hChild, hBefore⟩,
      fun hBoth => hBoth.2⟩

/- The map below the child a walk goes on from. -/
theorem entries_entryOrDir
    {current child : Inode}
    {component : String}
    {now : SystemTime}
    (hOk : entryOrDir current component now = .ok child)
    {q : List String}
    (hNonempty : q ≠ []) :
    child.entries q = current.entries (component :: q) := by
  rw [entryOrDir_eq_ok hOk, KeyTree.entries_childOrLeaf]
  simp [hNonempty]

private theorem take_succ_ne_nil
    {l : List String}
    {j : Nat}
    (hLt : j < l.length) :
    l.take (j + 1) ≠ [] := by
  cases l with
  | nil =>
      simp at hLt
  | cons k l =>
      simp

/-
  Readings shifted by one index see the nodes below the
  first component.
-/
theorem createsBeforeEpoch_cons
    (clock : Clock)
    (i : Nat)
    (current child : Inode)
    (component : String)
    (rest : List String)
    (hChild :
      entryOrDir current component (clock i) = .ok child) :
    FlatFs.CreatesBeforeEpoch current.entries
        (fun j => clock (i + j)) (component :: rest) ↔
      FlatFs.CreatesBeforeEpoch child.entries
        (fun j => clock (i + 1 + j)) rest := by
  constructor
  · rintro ⟨j, hLt, hNone, hBefore⟩
    cases j with
    | zero =>
        have hNo : current.child? component = none := by
          simpa [KeyTree.entries_eq_none_iff] using hNone
        have hError :
            entryOrDir current component (clock i) =
              .error .unwrapFailed :=
          entryOrDir_eq_error_iff.mpr
            ⟨hNo, by simpa using hBefore, rfl⟩
        cases hChild.symm.trans hError
    | succ j =>
        have hLt' : j < rest.length := by
          simpa using hLt
        refine ⟨j, hLt', ?_, ?_⟩
        · rw [entries_entryOrDir hChild
            (take_succ_ne_nil hLt')]
          simpa using hNone
        · have hIndex : i + 1 + j = i + (j + 1) := by
            omega
          simpa only [hIndex] using hBefore
  · rintro ⟨j, hLt, hNone, hBefore⟩
    refine ⟨j + 1, by simpa using hLt, ?_, ?_⟩
    · rw [entries_entryOrDir hChild
        (take_succ_ne_nil hLt)] at hNone
      simpa using hNone
    · have hIndex : i + 1 + j = i + (j + 1) := by
        omega
      simpa only [hIndex] using hBefore

/- A creating walk fails on a reading before the epoch. -/
theorem createDirFrom_eq_error_iff
    {clock : Clock}
    {i : Nat}
    {current : Inode}
    {comps : List String}
    {e : Panic} :
    createDirFrom clock i current comps = .error e ↔
      FlatFs.CreatesBeforeEpoch current.entries
          (fun j => clock (i + j)) comps ∧
        e = .unwrapFailed := by
  induction comps generalizing i current with
  | nil =>
      constructor
      · intro hEq
        cases hEq
      · rintro ⟨⟨j, hLt, _⟩, _⟩
        simp at hLt
  | cons component rest ih =>
      cases hChild :
          entryOrDir current component (clock i) with
      | error e' =>
          have hError := entryOrDir_eq_error_iff.mp hChild
          rw [createDirFrom, hChild]
          constructor
          · intro hEq
            cases hEq
            refine ⟨⟨0, by simp, ?_, by simpa using hError.2.1⟩,
              hError.2.2⟩
            simpa [KeyTree.entries_eq_none_iff]
              using hError.1
          · rintro ⟨_, rfl⟩
            rw [hError.2.2]
            rfl
      | ok child =>
          rw [createsBeforeEpoch_cons clock i current child
            component rest hChild, ← ih, createDirFrom,
            hChild]
          change (createDirFrom clock (i + 1) child rest >>=
            fun child' =>
              .ok (current.setChild component child')) =
            .error e ↔ _
          rw [bind_eq_error_iff]
          constructor
          · rintro (hError | ⟨_, _, hError⟩)
            · exact hError
            · cases hError
          · exact Or.inl

theorem createFileFrom_eq_error_iff
    {clock : Clock}
    {data : Bytes}
    {i : Nat}
    {current : Inode}
    {comps : List String}
    (hNonempty : comps ≠ [])
    {e : Panic} :
    createFileFrom clock data i current comps = .error e ↔
      (FlatFs.CreatesBeforeEpoch current.entries
          (fun j => clock (i + j)) comps.dropLast ∨
        clock (i + comps.length - 1) < 0) ∧
        e = .unwrapFailed := by
  induction comps generalizing i current with
  | nil =>
      exact (hNonempty rfl).elim
  | cons component rest ih =>
      cases rest with
      | nil =>
          rw [createFileFrom, bind_eq_error_iff]
          have hNone :
              ¬ FlatFs.CreatesBeforeEpoch current.entries
                (fun j => clock (i + j)) [] := by
            rintro ⟨j, hLt, _⟩
            simp at hLt
          constructor
          · rintro (hError | ⟨_, _, hError⟩)
            · have hBefore := new_eq_error_iff.mp hError
              exact ⟨Or.inr (by simpa using hBefore.1),
                hBefore.2⟩
            · cases hError
          · rintro ⟨hEarly | hBefore, hEq⟩
            · exact (hNone hEarly).elim
            · exact Or.inl (new_eq_error_iff.mpr
                ⟨by simpa using hBefore, hEq⟩)
      | cons next rest =>
          have hLength :
              i + (component :: next :: rest).length - 1 =
                i + 1 + (next :: rest).length - 1 := by
            simp only [List.length_cons]
            omega
          have hDrop :
              (component :: next :: rest).dropLast =
                component :: (next :: rest).dropLast := rfl
          rw [hLength, hDrop]
          cases hChild :
              entryOrDir current component (clock i) with
          | error e' =>
              have hError :=
                entryOrDir_eq_error_iff.mp hChild
              rw [createFileFrom, hChild]
              · constructor
                · intro hEq
                  cases hEq
                  refine ⟨Or.inl ⟨0, by simp, ?_,
                    by simpa using hError.2.1⟩, hError.2.2⟩
                  simpa [KeyTree.entries_eq_none_iff]
                    using hError.1
                · rintro ⟨_, rfl⟩
                  rw [hError.2.2]
                  rfl
              · intro hNil
                cases hNil
          | ok child =>
              rw [createsBeforeEpoch_cons clock i current
                child component _ hChild,
                ← ih (List.cons_ne_nil next rest),
                createFileFrom, hChild]
              · change
                  (createFileFrom clock data (i + 1) child
                      (next :: rest) >>=
                    fun child' =>
                      .ok (current.setChild component
                        child')) = .error e ↔ _
                rw [bind_eq_error_iff]
                constructor
                · rintro (hError | ⟨_, _, hError⟩)
                  · exact hError
                  · cases hError
                · exact Or.inl
              · intro hNil
                cases hNil

end Inode

end Planten

------------------------------------------------------------
-- Mutating Operations
------------------------------------------------------------

namespace Planten

namespace RamFs

variable {β : Type}

theorem viewResult_update
    (fs : RamFs)
    (op : Inode → Except Panic (Inode × β))
    (hKeeps : ∀ t r,
      t.UniqueKeys → op t = .ok r → r.1.UniqueKeys) :
    viewResult (fs.update op hKeeps) =
      (op fs.root).map (fun r => (r.1.entries, r.2)) := by
  cases hRun : fs.update op hKeeps with
  | error e =>
      rw [update_eq_error_iff.mp hRun]
      rfl
  | ok r =>
      rw [update_eq_ok_iff.mp hRun]
      rfl

/- Replacing a node by itself keeps the map. -/
theorem entries_replace_self
    {t s : Inode}
    {p : List String}
    (hSub : t.subtree? p = some s) :
    (KeyTree.replace s t p).entries = t.entries := by
  rw [KeyTree.replace_self hSub]

theorem view_createFile
    (fs : RamFs)
    (path : String)
    (data : Bytes)
    (clock : Clock) :
    viewResult (fs.createFile path data clock) =
      fs.view.createFile (components path) data clock := by
  rw [createFile, viewResult_update]
  by_cases hNil : components path = []
  · rw [FlatFs.createFile, if_pos hNil, hNil]
    rfl
  · rw [FlatFs.createFile, if_neg hNil]
    have hError (e : Panic) :=
      @Inode.createFileFrom_eq_error_iff clock data 0
        fs.root _ hNil e
    simp only [Nat.zero_add] at hError
    cases hRun :
        Inode.createFileFrom clock data 0 fs.root
          (components path) with
    | error e =>
        have hBefore := (hError e).mp hRun
        rw [if_pos (show
          fs.view.CreatesBeforeEpoch clock _ ∨ _ from
            hBefore.1), hBefore.2]
        rfl
    | ok root =>
        have hFine :
            ¬ (fs.view.CreatesBeforeEpoch clock
                (components path).dropLast ∨
              clock ((components path).length - 1) < 0) := by
          intro hBefore
          cases hRun.symm.trans
            ((hError .unwrapFailed).mpr ⟨hBefore, rfl⟩)
        rw [if_neg hFine,
          Inode.createFileFrom_eq_ok hNil hRun]
        have hLeaf :
            (KeyTree.leaf
              (Inode.freshFile clock data 0
                (components path)) : Inode).entries =
              PathMap.single
                (Inode.freshFile clock data 0
                  (components path)) := by
          funext q
          exact KeyTree.entries_leaf _ q
        simp only [Except.map, KeyTree.entries_graft, hLeaf]
        rfl

theorem view_createDir
    (fs : RamFs)
    (path : String)
    (clock : Clock) :
    viewResult (fs.createDir path clock) =
      fs.view.createDir (components path) clock := by
  rw [createDir, viewResult_update, FlatFs.createDir]
  have hError (e : Panic) :=
    @Inode.createDirFrom_eq_error_iff clock 0 fs.root
      (components path) e
  simp only [Nat.zero_add] at hError
  cases hRun :
      Inode.createDirFrom clock 0 fs.root
        (components path) with
  | error e =>
      have hBefore := (hError e).mp hRun
      rw [if_pos (show
        fs.view.CreatesBeforeEpoch clock _ from
          hBefore.1), hBefore.2]
      rfl
  | ok root =>
      have hFine :
          ¬ fs.view.CreatesBeforeEpoch clock
            (components path) := by
        intro hBefore
        cases hRun.symm.trans
          ((hError .unwrapFailed).mpr ⟨hBefore, rfl⟩)
      rw [if_neg hFine, Inode.createDirFrom_eq_ok hRun]
      simp only [Except.map, KeyTree.entries_grow]
      rfl

theorem view_write
    (fs : RamFs)
    (path : String)
    (offset : UInt64)
    (buf : Bytes)
    (clock : Clock) :
    viewResult (fs.write path offset buf clock) =
      fs.view.write (components path) offset buf
        clock := by
  unfold write FlatFs.write
  cases hComps : components path with
  | nil =>
      rfl
  | cons c cs =>
      rw [viewResult_update,
        if_neg (List.cons_ne_nil c cs)]
      cases hSub : fs.root.subtree? (c :: cs) with
      | none =>
          have hView : fs.view (c :: cs) = none :=
            (KeyTree.entries_eq_none_iff _ _).mpr hSub
          rw [KeyTree.descend_of_none hSub, hView]
          rfl
      | some node =>
          have hView : fs.view (c :: cs) = some node.val :=
            (KeyTree.entries_eq_some_iff _ _ _).mpr
              ⟨node, hSub, rfl⟩
          rw [KeyTree.descend_of_some hSub, hView,
            Inode.writeNode]
          simp only
          cases Inode.overlay node.val.data offset.toNat
              buf with
          | error e =>
              rfl
          | ok data =>
              have hSome :
                  (fs.root.subtree? (c :: cs)).isSome := by
                rw [hSub]
                rfl
              have hPlant :=
                KeyTree.entries_replace
                  (node.withVal
                    { node.val with
                      data := data,
                      mtime := asSecs (clock 0) })
                  hSome
              rw [KeyTree.entries_withVal,
                KeyTree.entries_of_subtree? hSub,
                PathMap.plant_branch_assign,
                List.append_nil] at hPlant
              simp only [bind, Except.bind, Except.map]
              rw [hPlant]
              rfl

/- A path is its parent followed by its last key. -/
theorem dropLast_append_of_getLast?
    {p : List String}
    {k : String}
    (hLast : p.getLast? = some k) :
    p.dropLast ++ [k] = p :=
  List.dropLast_append_getLast? k hLast

theorem view_remove
    (fs : RamFs)
    (path : String) :
    viewResult (fs.remove path) =
      .ok (fs.view.remove (components path)) := by
  unfold remove FlatFs.remove
  cases hLast : (components path).getLast? with
  | none =>
      have hNil := List.getLast?_eq_none_iff.mp hLast
      rw [if_pos (Or.inl hNil)]
      rfl
  | some name =>
      have hPath := dropLast_append_of_getLast? hLast
      have hNonempty : components path ≠ [] := by
        intro hNil
        simp [hNil] at hLast
      simp only
      rw [viewResult_update]
      cases hParent :
          fs.root.subtree? (components path).dropLast with
      | none =>
          have hView :
              fs.view (components path) = none := by
            rw [← hPath]
            exact KeyTree.entries_of_no_parent hParent name
          rw [KeyTree.descend_of_none hParent,
            if_pos (Or.inr hView)]
          rfl
      | some parent =>
          have hView :
              fs.view (components path) =
                (parent.child? name).map KeyTree.val := by
            rw [← hPath]
            exact KeyTree.entries_of_parent hParent name
          have hRemove :=
            KeyTree.entries_removeEntry hParent name
          rw [hPath] at hRemove
          rw [KeyTree.descend_of_some hParent,
            Inode.removeEntry]
          cases hChild : parent.child? name with
          | none =>
              rw [hChild, Option.map_none] at hView
              rw [if_pos (Or.inr hView)]
              simp only [Except.map,
                entries_replace_self hParent]
              rfl
          | some child =>
              rw [hChild] at hView
              rw [if_neg (by simp [hNonempty, hView])]
              simp only [Except.map, hRemove]
              rfl

/-
  The stat of an entry is changed in the parent: a rename
  moves the entry, and anything else keeps its key.
-/
theorem entries_wstatEntry
    {t parent : Inode}
    {q : List String}
    (name : String)
    (hParent : t.subtree? q = some parent)
    (stat : Stat) :
    (Inode.wstatEntry stat name parent).map
        (fun r => ((KeyTree.replace r.1 t q).entries, r.2)) =
      FlatFs.wstatFromStat t.entries (q ++ [name]) stat := by
  have hEntry := KeyTree.entries_of_parent hParent name
  rw [Inode.wstatEntry, FlatFs.wstatFromStat]
  cases hChild : parent.child? name with
  | none =>
      rw [hChild] at hEntry
      rw [hEntry]
      simp only [Except.map, entries_replace_self hParent]
      rfl
  | some inode =>
      rw [hChild] at hEntry
      rw [hEntry]
      simp only [Option.map_some, List.getLast?_append,
        List.getLast?_singleton, Option.some_or,
        List.dropLast_concat]
      cases hAttrs : Inode.applyStat stat inode.val with
      | error e =>
          rfl
      | ok attrs =>
          simp only [bind, Except.bind]
          by_cases hRename :
              stat.name ≠ "" ∧ stat.name ≠ name
          · rw [if_pos hRename, if_pos hRename]
            have hTarget :=
              KeyTree.entries_of_parent hParent stat.name
            rw [hTarget]
            cases hTaken : parent.child? stat.name with
            | some other =>
                simp only [Except.map, Option.map_some,
                  entries_replace_self hParent]
            | none =>
                simp only [Except.map, Option.map_none,
                  KeyTree.entries_moveEntry hParent hChild]
          · rw [if_neg hRename, if_neg hRename]
            simp only [Except.map,
              KeyTree.entries_setEntry hParent hChild]

theorem view_wstatFromStat
    (fs : RamFs)
    (path : String)
    (stat : Stat) :
    viewResult (fs.wstatFromStat path stat) =
      fs.view.wstatFromStat (components path) stat := by
  rw [wstatFromStat]
  cases hLast : (components path).getLast? with
  | none =>
      have hNil := List.getLast?_eq_none_iff.mp hLast
      have hRoot :=
        KeyTree.entries_withVal fs.root
          (Inode.applyRootStat stat fs.root.val)
      simp only [FlatFs.wstatFromStat, hNil, view_nil]
      simp only [viewResult, Except.map, view, hRoot,
        List.getLast?_nil]
  | some name =>
      have hPath := dropLast_append_of_getLast? hLast
      simp only
      rw [viewResult_update]
      cases hParent :
          fs.root.subtree? (components path).dropLast with
      | none =>
          have hView :
              fs.view (components path) = none := by
            rw [← hPath]
            exact KeyTree.entries_of_no_parent hParent name
          rw [KeyTree.descend_of_none hParent,
            FlatFs.wstatFromStat, hView]
          rfl
      | some parent =>
          have hEntry := entries_wstatEntry name hParent stat
          rw [hPath] at hEntry
          rw [KeyTree.descend_of_some hParent, view, ← hEntry]
          cases Inode.wstatEntry stat name parent with
          | error e =>
              rfl
          | ok r =>
              rfl

end RamFs

end Planten

------------------------------------------------------------
-- Written Data
------------------------------------------------------------

namespace Planten

namespace Inode

/-
  Data with a buffer written over it: a gap before the
  buffer is filled with zeros.
-/
def splice
    (data : Bytes)
    (start : Nat)
    (buf : Bytes) : Bytes :=
  data.take start ++
    List.replicate (start - data.length) 0 ++
    buf ++ data.drop (start + buf.length)

theorem copySlice_eq_ok
    {data buf : Bytes}
    {start stop : Nat}
    (hStop : stop = start + buf.length)
    (hFits : stop ≤ data.length) :
    copySlice data start stop buf =
      .ok (data.take start ++ buf ++ data.drop stop) :=
  if_pos ⟨by omega, hFits, by omega⟩

/- Data grown to the end of the buffer. -/
theorem take_append_zeros
    (data : Bytes)
    {start stop : Nat}
    (hStart : start ≤ stop) :
    (data ++
        List.replicate (stop - data.length) 0).take start =
      data.take start ++
        List.replicate (start - data.length) 0 := by
  rw [List.take_append, List.take_replicate,
    min_eq_left (by omega)]

/- A write succeeds when its end fits, and splices. -/
theorem overlay_eq
    (data : Bytes)
    (start : Nat)
    (buf : Bytes) :
    overlay data start buf =
      if 2 ^ 64 ≤ start + buf.length then
        .error .addOverflow
      else if max data.length isizeMax <
          start + buf.length then
        .error .capacityOverflow
      else
        .ok (splice data start buf) := by
  unfold overlay
  by_cases hWraps : 2 ^ 64 ≤ start + buf.length
  · rw [if_pos hWraps, usizeAdd, if_neg (by omega)]
    rfl
  · rw [if_neg hWraps, usizeAdd_of_lt (by omega)]
    by_cases hGrows : data.length < start + buf.length
    · by_cases hFits : start + buf.length ≤ isizeMax
      · have hLength :
            (data ++
              List.replicate
                (start + buf.length - data.length)
                (0 : UInt8)).length =
              start + buf.length := by
          rw [List.length_append, List.length_replicate]
          omega
        rw [if_neg (by rw [max_lt_iff]; omega)]
        simp only [bind, Except.bind, if_pos hGrows, resize,
          if_neg (not_le.mpr hGrows), if_pos hFits]
        rw [copySlice_eq_ok rfl (by omega),
          take_append_zeros data (by omega), splice,
          List.drop_eq_nil_of_le (by omega),
          List.drop_eq_nil_of_le (by omega)]
      · rw [if_pos (by rw [max_lt_iff]; omega)]
        simp only [bind, Except.bind, if_pos hGrows, resize,
          if_neg (not_le.mpr hGrows), if_neg hFits]
    · have hGap : start - data.length = 0 := by
        omega
      rw [if_neg (by rw [max_lt_iff]; omega)]
      simp only [bind, Except.bind, if_neg hGrows]
      rw [copySlice_eq_ok rfl (by omega), splice, hGap,
        List.replicate_zero, List.append_nil]

end Inode

end Planten

------------------------------------------------------------
-- Operations That Answer None
------------------------------------------------------------

namespace Planten

namespace Inode

theorem removeEntry_eq_none
    {name : String}
    {current current' : Inode}
    (hOk : removeEntry name current = .ok (current', none)) :
    current' = current := by
  unfold removeEntry at hOk
  split at hOk
  · cases hOk
    rfl
  · cases hOk

theorem wstatEntry_eq_none
    {stat : Stat}
    {filename : String}
    {current current' : Inode}
    (hOk :
      wstatEntry stat filename current =
        .ok (current', none)) :
    current' = current := by
  unfold wstatEntry at hOk
  split at hOk
  · cases hOk
    rfl
  · rw [bind_eq_ok_iff] at hOk
    rcases hOk with ⟨attrs, _, hOk⟩
    split at hOk
    · split at hOk
      · cases hOk
        rfl
      · cases hOk
    · cases hOk

end Inode

namespace RamFs

/- A failed removal leaves the file system alone. -/
theorem remove_eq_none
    {fs fs' : RamFs}
    {path : String}
    (hOk : fs.remove path = .ok (fs', none)) :
    fs' = fs := by
  unfold remove at hOk
  split at hOk
  · cases hOk
    rfl
  · rw [update_eq_ok_iff] at hOk
    exact RamFs.ext (KeyTree.descend_missing
      (fun _ _ hNode =>
        Inode.removeEntry_eq_none hNode) hOk)

/- A failed wstat leaves the file system alone. -/
theorem wstatFromStat_eq_none
    {fs fs' : RamFs}
    {path : String}
    {stat : Stat}
    (hOk : fs.wstatFromStat path stat = .ok (fs', none)) :
    fs' = fs := by
  unfold wstatFromStat at hOk
  split at hOk
  · cases hOk
  · rw [update_eq_ok_iff] at hOk
    exact RamFs.ext (KeyTree.descend_missing
      (fun _ _ hNode =>
        Inode.wstatEntry_eq_none hNode) hOk)

end RamFs

end Planten
