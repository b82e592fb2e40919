import Planten.Library.KeyTree
import Planten.Library.Splitting
import Planten.Runtime

/-
  Inodes, clock readings and path components of the RAM file
  system.

  Key definitions include:
    * `Attrs`
    * `Inode`
    * `Inode.new`
    * `components`

  Key theorems include:
    * `components_append_slash`
    * `components_of_plain`
    * `utf8ByteSize_of_mem_components`
    * `slashFree_of_mem_components`
-/

------------------------------------------------------------
-- Inodes
------------------------------------------------------------

namespace Planten

/- The directory bit of a mode. -/
def DMDIR : UInt32 :=
  0x80000000

/- The fields of an inode other than its children. -/
structure Attrs where
  name : String
  data : Bytes
  mode : UInt32
  uid : String
  gid : String
  atime : UInt32
  mtime : UInt32
deriving DecidableEq, Repr

/- An inode: its fields, and its children under their keys. -/
abbrev Inode :=
  KeyTree String Attrs

/-
  A reading of the system clock, in seconds since the Unix
  epoch.  It is negative before the epoch.
-/
abbrev SystemTime :=
  Int

/-
  The clock readings made while one operation runs.  The
  node created for the `i`th component of a path takes
  reading `i`; every other use takes reading 0.
-/
abbrev Clock :=
  Nat → SystemTime

/- `as_secs() as u32`, with 0 before the epoch. -/
def asSecs (now : SystemTime) : UInt32 :=
  UInt32.ofNat now.toNat

/- The fields of a fresh inode. -/
def freshAttrs
    (name : String)
    (mode : UInt32)
    (now : SystemTime) : Attrs :=
  ⟨name, [], mode, "user", "group", asSecs now, asSecs now⟩

/- A fresh inode; a clock before the epoch panics. -/
def Inode.new
    (name : String)
    (mode : UInt32)
    (now : SystemTime) : Except Panic Inode :=
  if now < 0 then
    .error .unwrapFailed
  else
    .ok (.leaf (freshAttrs name mode now))

/- The mode of a directory the file system creates. -/
def dirMode : UInt32 :=
  0o755 ||| DMDIR

/- The mode of a file the file system creates. -/
def fileMode : UInt32 :=
  0o644

/- The directory bit of a node. -/
def Attrs.IsDir (attrs : Attrs) : Prop :=
  attrs.mode &&& DMDIR ≠ 0

instance (attrs : Attrs) : Decidable attrs.IsDir := by
  unfold Attrs.IsDir
  infer_instance

end Planten

------------------------------------------------------------
-- Path Components
------------------------------------------------------------

namespace Planten

/- `path.split('/').filter(|s| !s.is_empty())`. -/
def components (path : String) : List String :=
  ((path.toList.splitOn '/').map String.ofList).filter
    (fun s => s ≠ "")

/- Splitting at a slash concatenates the components. -/
theorem components_append_slash (s t : String) :
    components (s ++ "/" ++ t) =
      components s ++ components t := by
  have hSplit :
      (s ++ "/" ++ t).toList.splitOn '/' =
        s.toList.splitOn '/' ++ t.toList.splitOn '/' := by
    have hList :
        (s ++ "/" ++ t).toList =
          s.toList ++ '/' :: t.toList := by
      simp [String.toList_append]
    rw [hList, List.splitOn_append_cons_self]
  rw [components, hSplit, List.map_append,
    List.filter_append]
  rfl

@[simp] theorem components_empty :
    components "" = [] := by
  decide

@[simp] theorem components_slash :
    components "/" = [] := by
  decide

/- A leading slash adds no component. -/
theorem components_slash_append (s : String) :
    components ("/" ++ s) = components s := by
  have hEmpty := components_append_slash "" s
  rw [String.empty_append] at hEmpty
  rw [hEmpty, components_empty, List.nil_append]

/- A nonempty string without a slash is one component. -/
theorem components_of_plain
    {s : String}
    (hNonempty : s ≠ "")
    (hSlash : '/' ∉ s.toList) :
    components s = [s] := by
  have hSplit : s.toList.splitOn '/' = [s.toList] :=
    List.splitOn_eq_singleton hSlash
  simp [components, hSplit, hNonempty]

/- The parts of a split, in order, are among its input. -/
theorem flatten_splitOn_sublist (l : List Char) :
    List.Sublist (l.splitOn '/').flatten l := by
  induction l with
  | nil =>
      simp
  | cons c l ih =>
      rw [List.splitOn_cons_eq_if_modifyHead]
      split
      · rw [List.flatten_cons, List.nil_append]
        exact ih.cons c
      · cases hParts : l.splitOn '/' with
        | nil =>
            simp
        | cons first parts =>
            rw [hParts] at ih
            simpa using ih

theorem utf8ByteSize_ofList_cons
    (c : Char)
    (l : List Char) :
    (String.ofList (c :: l)).utf8ByteSize =
      (String.ofList [c]).utf8ByteSize +
        (String.ofList l).utf8ByteSize := by
  rw [← String.utf8ByteSize_append, ← String.ofList_append]
  rfl

/- Dropping characters makes a string no longer. -/
theorem utf8ByteSize_le_of_sublist
    {l l' : List Char}
    (hSublist : List.Sublist l l') :
    (String.ofList l).utf8ByteSize ≤
      (String.ofList l').utf8ByteSize := by
  induction hSublist with
  | slnil =>
      exact le_rfl
  | @cons l l' c hTail ih =>
      have hRight := utf8ByteSize_ofList_cons c l'
      omega
  | @cons_cons l l' c hTail ih =>
      have hLeft := utf8ByteSize_ofList_cons c l
      have hRight := utf8ByteSize_ofList_cons c l'
      omega

/- A component is no longer than its path. -/
theorem utf8ByteSize_of_mem_components
    {path c : String}
    (hMem : c ∈ components path) :
    c.utf8ByteSize ≤ path.utf8ByteSize := by
  simp only [components, List.mem_filter,
    List.mem_map] at hMem
  rcases hMem with ⟨⟨part, hPart, rfl⟩, _⟩
  have hSize :=
    utf8ByteSize_le_of_sublist
      ((List.sublist_flatten_of_mem hPart).trans
        (flatten_splitOn_sublist path.toList))
  rwa [String.ofList_toList] at hSize

/- A component does not hold a slash. -/
theorem slashFree_of_mem_components
    {path c : String}
    (hMem : c ∈ components path) :
    '/' ∉ c.toList := by
  simp only [components, List.mem_filter,
    List.mem_map] at hMem
  rcases hMem with ⟨⟨part, hPart, rfl⟩, _⟩
  rw [String.toList_ofList]
  exact Splitting.not_mem_of_mem_splitOn hPart

end Planten
