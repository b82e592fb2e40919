import Planten.PseudoFs.ProcFs

/-
  The lookups of the process file system.

  A walk, a read and a stat find the same paths.  An open
  finds more: below a directory of a process it takes every
  name.  And the root finds more than it lists: a pid may be
  spelled with a plus sign or leading zeros.

  Key definitions include:
    * `ProcFs.Node`
    * `ProcFs.Unlisted`
    * `ProcFs.Respelled`

  Key theorems include:
    * `ProcFs.isSome_walk`
    * `ProcFs.isSome_open`
    * `ProcFs.isSome_read`
    * `ProcFs.stat_cases`
    * `ProcFs.lookups_agree_iff`
-/

------------------------------------------------------------
-- The Tree of the File System
------------------------------------------------------------

namespace Planten

variable {Pid : Type} [DecidableEq Pid]

/-
  The pids of a table are printed in decimal, as numbers they
  are made from.
-/
def PidText.Prints
    (pids : PidText Pid)
    (procs : ProcTable Pid) : Prop :=
  ∀ pid ∈ KeyMap.keys procs,
    ∃ n,
      n < 2 ^ 64 ∧
        pids.fromUsize n = pid ∧
        pids.display pid = n.repr

/-
  Every reading finds one table, and the clock is not before
  the epoch.
-/
structure Host.Fixed
    (host : Host (ProcTable Pid))
    (procs : ProcTable Pid) : Prop where
  reading : ∀ i, host.reading i = procs
  clock : ∀ i, 0 ≤ host.clock i

namespace ProcFs

variable (pids : PidText Pid)

/- The paths that lead somewhere, as components. -/
def Node
    (procs : ProcTable Pid) : List String → Prop
| [] => True
| [pid] => pidExists pids procs pid
| [pid, name] =>
    pidExists pids procs pid ∧ (findEntryKind name).isSome
| [pid, dir, item] =>
    pidExists pids procs pid ∧
      ∃ procDir,
        findDir dir = some procDir ∧
          item ∈ procDir.entries
| _ => False

/-
  A name below a directory of a live process that is not one
  of its entries.
-/
def Unlisted
    (procs : ProcTable Pid)
    (comps : List String) : Prop :=
  ∃ pid dir item procDir,
    comps = [pid, dir, item] ∧
      pidExists pids procs pid ∧
      findDir dir = some procDir ∧
      item ∉ procDir.entries

/- Another spelling of a live pid, at the root. -/
def Respelled
    (procs : ProcTable Pid)
    (comps : List String)
    (name : String) : Prop :=
  comps = [] ∧
    ∃ n,
      parseUsize name = some n ∧
        (procs.lookup (pids.fromUsize n)).isSome ∧
        pids.display (pids.fromUsize n) ≠ name

variable {pids} {procs : ProcTable Pid}
variable {host : Host (ProcTable Pid)}

theorem parse_of_pidExists
    {pid : String}
    (hExists : pidExists pids procs pid) :
    ∃ n process,
      parseUsize pid = some n ∧
        procs.lookup (pids.fromUsize n) = some process := by
  unfold pidExists at hExists
  split at hExists
  · rename_i n hParse
    rcases Option.isSome_iff_exists.mp hExists with
      ⟨process, hLookup⟩
    exact ⟨n, process, hParse, hLookup⟩
  · cases hExists

/- The directories of a process are entries of it. -/
theorem findEntryKind_eq_dir_iff
    (name : String)
    (dir : ProcDir) :
    findEntryKind name = some (.dir dir) ↔
      findDir name = some dir := by
  unfold findEntryKind
  split
  · rename_i entry hFind
    have hMem := List.mem_of_find?_eq_some hFind
    have hName := List.find?_some hFind
    simp only [PROC_ENTRIES, List.mem_cons,
      List.not_mem_nil, or_false] at hMem
    rcases hMem with
      rfl | rfl | rfl | rfl | rfl | rfl
    all_goals
      simp only [decide_eq_true_eq] at hName
      subst hName
      cases dir <;> decide
  · simp

/- The entries found are the entries listed. -/
theorem isSome_findEntryKind
    (name : String) :
    (findEntryKind name).isSome ↔
      name ∈ processEntryNames := by
  unfold findEntryKind processEntryNames
  split
  · rename_i entry hFind
    have hMem := List.mem_of_find?_eq_some hFind
    have hName := List.find?_some hFind
    simp only [decide_eq_true_eq] at hName
    subst hName
    simp only [Option.isSome_some, List.mem_append,
      List.mem_map_of_mem hMem, true_or]
  · rename_i hNone
    rw [Option.isSome_map, findDir, List.find?_isSome]
    simp only [List.find?_eq_none, decide_eq_true_eq]
      at hNone
    simp only [List.mem_append, List.mem_map,
      decide_eq_true_eq]
    constructor
    · rintro ⟨dir, hDir, hName⟩
      exact Or.inr ⟨dir, hDir, hName⟩
    · rintro (⟨entry, hEntry, hName⟩ | hDir)
      · exact (hNone entry hEntry hName).elim
      · exact hDir

end ProcFs

end Planten

------------------------------------------------------------
-- What Each Call Finds
------------------------------------------------------------

namespace Planten

namespace ProcFs

variable {Pid : Type} [DecidableEq Pid]
variable {pids : PidText Pid} {procs : ProcTable Pid}
variable {host : Host (ProcTable Pid)}

/- A directory entry of a live process has content. -/
theorem isSome_readDirEntry
    {n : Nat}
    {process : Process Pid}
    (hProcess :
      procs.lookup (pids.fromUsize n) = some process)
    (dir : ProcDir)
    (item : String) :
    (readDirEntry pids procs n dir item).isSome ↔
      item ∈ dir.entries := by
  cases dir with
  | fd =>
      simp only [readDirEntry, readFdEntry, ProcDir.entries]
      split
      · simp_all
      · simp_all
  | task =>
      simp only [readDirEntry, readTaskEntry,
        readFileEntry, withProcess, hProcess,
        ProcDir.entries, Option.map_some]
      split
      · simp_all
      · simp_all

/- The same, through the texts of the path. -/
theorem isSome_readItem
    {pid : String}
    (hExists : pidExists pids procs pid)
    (dir item : String) :
    ((parseUsize pid).bind (fun pidVal =>
        (findDir dir).bind (fun procDir =>
          readDirEntry pids procs pidVal procDir
            item))).isSome ↔
      ∃ procDir,
        findDir dir = some procDir ∧
          item ∈ procDir.entries := by
  rcases parse_of_pidExists hExists with
    ⟨n, process, hParse, hProcess⟩
  rw [hParse, Option.bind_some]
  cases hDir : findDir dir with
  | none =>
      simp
  | some procDir =>
      rw [Option.bind_some, isSome_readDirEntry hProcess]
      simp

/- A file of a live process has content. -/
theorem isSome_readFile
    {pid : String}
    (hExists : pidExists pids procs pid)
    (file : ProcFile) :
    ((parseUsize pid).bind (fun pidVal =>
      readFileEntry pids procs pidVal file)).isSome := by
  rcases parse_of_pidExists hExists with
    ⟨n, process, hParse, hProcess⟩
  rw [hParse, Option.bind_some, readFileEntry, withProcess,
    hProcess]
  rfl

theorem isSome_walk
    (hFixed : host.Fixed procs)
    (path : String) :
    (walk pids host path).isSome ↔
      Node pids procs (components path) := by
  unfold walk
  simp only [hFixed.reading]
  rcases components path with
    _ | ⟨pid, _ | ⟨name, _ | ⟨item, _ | ⟨more, rest⟩⟩⟩⟩
  · simp [Node]
  · cases hExists : pidExists pids procs pid with
    | false =>
        simp [Node, hExists]
    | true =>
        simp [Node, hExists]
  · cases hExists : pidExists pids procs pid with
    | false =>
        simp [Node, hExists]
    | true =>
        simp only [Node, hExists, if_true, true_and]
        cases findEntryKind name with
        | none =>
            rfl
        | some kind =>
            cases kind with
            | file file =>
                rfl
            | dir dir =>
                rfl
  · cases hExists : pidExists pids procs pid with
    | false =>
        simp [Node, hExists]
    | true =>
        simp only [Node, hExists, if_true, true_and]
        cases findDir name with
        | none =>
            simp
        | some procDir =>
            cases procDir with
            | fd =>
                simp [ProcDir.entries]
            | task =>
                simp [ProcDir.entries]
  · simp [Node]

/- Below a directory of a process, an open takes any name. -/
theorem isSome_open
    (hFixed : host.Fixed procs)
    (path : String) :
    (open_ pids host path).isSome ↔
      Node pids procs (components path) ∨
        Unlisted pids procs (components path) := by
  unfold open_
  simp only [hFixed.reading]
  rcases components path with
    _ | ⟨pid, _ | ⟨name, _ | ⟨item, _ | ⟨more, rest⟩⟩⟩⟩
  · simp [Node]
  · cases hExists : pidExists pids procs pid with
    | false =>
        simp [Node, Unlisted, hExists]
    | true =>
        simp [Node, hExists]
  · cases hExists : pidExists pids procs pid with
    | false =>
        simp [Node, Unlisted, hExists]
    | true =>
        simp [Node, Unlisted, hExists]
  · have hUnlisted :
        Unlisted pids procs [pid, name, item] ↔
          pidExists pids procs pid ∧
            ∃ procDir,
              findDir name = some procDir ∧
                item ∉ procDir.entries := by
      constructor
      · rintro ⟨_, _, _, procDir, hEq, hFound⟩
        cases hEq
        exact ⟨hFound.1, procDir, hFound.2⟩
      · rintro ⟨hExists, procDir, hFound⟩
        exact ⟨pid, name, item, procDir, rfl, hExists,
          hFound⟩
    have hAny :
        PROC_DIRS.any (fun d => d.name = name) =
          (findDir name).isSome := by
      rw [findDir, List.isSome_find?]
    rw [hUnlisted]
    cases hExists : pidExists pids procs pid with
    | false =>
        simp [Node, hExists]
    | true =>
        simp only [Node, hExists, if_true, true_and, hAny]
        cases findDir name with
        | none =>
            simp
        | some procDir =>
            simp [Classical.em]
  · simp [Node, Unlisted]

theorem isSome_read
    (hFixed : host.Fixed procs)
    (path : String) :
    (read pids host path).isSome ↔
      Node pids procs (components path) := by
  unfold read
  simp only [hFixed.reading]
  rcases components path with
    _ | ⟨pid, _ | ⟨name, _ | ⟨item, _ | ⟨more, rest⟩⟩⟩⟩
  · simp [Node]
  · cases hExists : pidExists pids procs pid with
    | false =>
        simp [Node, hExists]
    | true =>
        simp [Node, hExists]
  · cases hExists : pidExists pids procs pid with
    | false =>
        simp [Node, hExists]
    | true =>
        simp only [Node, hExists, if_true, true_and]
        cases findEntryKind name with
        | none =>
            rfl
        | some kind =>
            cases kind with
            | file file =>
                simp only [Option.isSome_some, iff_true]
                exact isSome_readFile hExists file
            | dir dir =>
                rfl
  · cases hExists : pidExists pids procs pid with
    | false =>
        simp [Node, hExists]
    | true =>
        simp only [Node, hExists, if_true, true_and]
        exact isSome_readItem hExists name item
  · simp [Node]

omit [DecidableEq Pid] in
/- A fixed host is fixed from any reading on. -/
theorem fixed_later
    (hFixed : host.Fixed procs)
    (n : Nat) :
    (host.later n).Fixed procs :=
  ⟨fun i => hFixed.reading (n + i), hFixed.clock⟩

/- A stat answers with an inode or with nothing. -/
theorem stat_cases
    (hFixed : host.Fixed procs)
    (path : String) :
    (Node pids procs (components path) ∧
        ∃ attrs, stat pids host path = .ok (some attrs)) ∨
      (¬ Node pids procs (components path) ∧
        stat pids host path = .ok none) := by
  have hRead :
      (read pids (host.later 1) path).isSome ↔
        Node pids procs (components path) :=
    isSome_read (fixed_later hFixed 1) path
  have hMake (name : String) (mode : UInt32)
      (data : Bytes) :=
    statAttrs_of_epoch (hFixed.clock 1) name mode data
  unfold stat
  revert hRead
  generalize read pids (host.later 1) path = content
  simp only [hFixed.reading, hMake]
  rcases components path with
    _ | ⟨pid, _ | ⟨name, _ | ⟨item, _ | ⟨more, rest⟩⟩⟩⟩
  · intro hRead
    exact Or.inl ⟨trivial, _, rfl⟩
  · intro hRead
    cases hExists : pidExists pids procs pid with
    | false =>
        refine Or.inr ⟨?_, ?_⟩
        · simp [Node, hExists]
        · simp [hExists]
          rfl
    | true =>
        simp only [Node, hExists, if_true]
        exact Or.inl ⟨trivial, _, rfl⟩
  · intro hRead
    cases hExists : pidExists pids procs pid with
    | false =>
        refine Or.inr ⟨?_, ?_⟩
        · simp [Node, hExists]
        · simp [hExists]
          rfl
    | true =>
        simp only [Node, hExists, if_true, true_and]
        simp only [Node, hExists, true_and] at hRead
        cases hKind : findEntryKind name with
        | none =>
            exact Or.inr ⟨by rintro ⟨⟩, rfl⟩
        | some kind =>
            rw [hKind] at hRead
            cases kind with
            | dir dir =>
                exact Or.inl ⟨rfl, _, rfl⟩
            | file file =>
                rcases Option.isSome_iff_exists.mp
                  (hRead.mpr rfl) with ⟨data, rfl⟩
                exact Or.inl ⟨rfl, _, rfl⟩
  · intro hRead
    cases hExists : pidExists pids procs pid with
    | false =>
        refine Or.inr ⟨?_, ?_⟩
        · simp [Node, hExists]
        · simp [hExists]
          rfl
    | true =>
        have hItem := isSome_readItem hExists name item
        simp only [Node, hExists, if_true, true_and,
          ← hItem]
        cases (parseUsize pid).bind (fun pidVal =>
          (findDir name).bind (fun procDir =>
            readDirEntry pids procs pidVal procDir
              item)) with
        | none =>
            exact Or.inr ⟨by rintro ⟨⟩, rfl⟩
        | some data =>
            exact Or.inl ⟨rfl, _, rfl⟩
  · intro hRead
    exact Or.inr ⟨id, rfl⟩

end ProcFs

end Planten

------------------------------------------------------------
-- Agreement
------------------------------------------------------------

namespace Planten

namespace ProcFs

variable {Pid : Type} [DecidableEq Pid]

/- A stat of the path finds an inode. -/
def StatSucceeds
    (pids : PidText Pid)
    (host : Host (ProcTable Pid))
    (path : String) : Prop :=
  ∃ attrs, stat pids host path = .ok (some attrs)

/- The four lookups of a path succeed together or fail. -/
def Agree
    (pids : PidText Pid)
    (host : Host (ProcTable Pid))
    (path : String) : Prop :=
  ((walk pids host path).isSome ∧
      (open_ pids host path).isSome ∧
      (read pids host path).isSome ∧
      StatSucceeds pids host path) ∨
    (walk pids host path = none ∧
      open_ pids host path = none ∧
      read pids host path = none ∧
      stat pids host path = .ok none)

/- The walk of a path lists a name. -/
def Lists
    (pids : PidText Pid)
    (host : Host (ProcTable Pid))
    (path name : String) : Prop :=
  ∃ names, walk pids host path = some names ∧ name ∈ names

variable {pids : PidText Pid} {procs : ProcTable Pid}
variable {host : Host (ProcTable Pid)}

theorem statSucceeds_iff
    (hFixed : host.Fixed procs)
    (path : String) :
    StatSucceeds pids host path ↔
      Node pids procs (components path) := by
  rcases stat_cases hFixed path with
    ⟨hNode, hSome⟩ | ⟨hNot, hNone⟩
  · exact iff_of_true hSome hNode
  · apply iff_of_false _ hNot
    rintro ⟨attrs, hSome⟩
    cases hNone.symm.trans hSome

/- An unlisted name leads nowhere. -/
theorem not_node_of_unlisted
    {comps : List String}
    (hUnlisted : Unlisted pids procs comps) :
    ¬ Node pids procs comps := by
  rcases hUnlisted with
    ⟨pid, dir, item, procDir, rfl, _, hDir, hNot⟩
  rintro ⟨_, procDir', hDir', hMem⟩
  cases hDir.symm.trans hDir'
  exact hNot hMem

/- Only an open can differ, and only on an unlisted name. -/
theorem agree_iff
    (hFixed : host.Fixed procs)
    (path : String) :
    Agree pids host path ↔
      ¬ Unlisted pids procs (components path) := by
  have hWalk :
      (walk pids host path).isSome ↔ _ :=
    isSome_walk hFixed path
  have hOpen :
      (open_ pids host path).isSome ↔ _ :=
    isSome_open hFixed path
  have hRead :
      (read pids host path).isSome ↔ _ :=
    isSome_read hFixed path
  rcases stat_cases hFixed path with
    ⟨hNode, hSome⟩ | ⟨hNot, hNone⟩
  · apply iff_of_true
    · exact Or.inl ⟨hWalk.mpr hNode,
        hOpen.mpr (Or.inl hNode), hRead.mpr hNode, hSome⟩
    · intro hUnlisted
      exact not_node_of_unlisted hUnlisted hNode
  · constructor
    · rintro (⟨hSome, _⟩ | ⟨_, hClosed, _⟩)
      · exact (hNot (hWalk.mp hSome)).elim
      · intro hUnlisted
        have hOpened := hOpen.mpr (Or.inr hUnlisted)
        rw [hClosed] at hOpened
        cases hOpened
    · intro hListed
      refine Or.inr ⟨?_, ?_, ?_, hNone⟩
      · rw [← Option.not_isSome_iff_eq_none, hWalk]
        exact hNot
      · rw [← Option.not_isSome_iff_eq_none, hOpen]
        exact not_or_intro hNot hListed
      · rw [← Option.not_isSome_iff_eq_none, hRead]
        exact hNot

omit [DecidableEq Pid] in
/- The root lists the printed pids. -/
theorem mem_listPids_iff
    (name : String) :
    name ∈ listPids pids procs ↔
      ∃ pid ∈ KeyMap.keys procs, pids.display pid = name := by
  rw [listPids, (List.perm_insertionSort _ _).mem_iff,
    List.mem_map]

/-
  The root finds the pids it lists, and each live pid under
  any other text that is parsed as its number.
-/
theorem pidExists_iff
    (hPrints : pids.Prints procs)
    (name : String) :
    pidExists pids procs name ↔
      name ∈ listPids pids procs ∨
        Respelled pids procs [] name := by
  rw [mem_listPids_iff]
  constructor
  · intro hExists
    rcases parse_of_pidExists hExists with
      ⟨n, process, hParse, hProcess⟩
    have hLive :
        (procs.lookup (pids.fromUsize n)).isSome := by
      rw [hProcess]
      rfl
    by_cases hShown :
      pids.display (pids.fromUsize n) = name
    · exact Or.inl ⟨pids.fromUsize n,
        (KeyMap.mem_keys_iff _ _).mpr hLive, hShown⟩
    · exact Or.inr ⟨rfl, n, hParse, hLive, hShown⟩
  · rintro (⟨pid, hMem, rfl⟩ |
      ⟨_, n, hParse, hLive, _⟩)
    · rcases hPrints pid hMem with
        ⟨n, hFits, rfl, hShown⟩
      rw [hShown, pidExists, parseUsize_repr hFits]
      exact (KeyMap.mem_keys_iff _ _).mp hMem
    · rw [pidExists, hParse]
      exact hLive

/- A name is found below a path where it is listed. -/
theorem node_concat_iff
    (hPrints : pids.Prints procs)
    (hFixed : host.Fixed procs)
    (path name : String) :
    Node pids procs (components path ++ [name]) ↔
      Lists pids host path name ∨
        Respelled pids procs (components path) name := by
  have hDeep :
      components path ≠ [] →
        ¬ Respelled pids procs (components path) name :=
    fun hNonempty hRespelled => hNonempty hRespelled.1
  unfold Lists walk
  revert hDeep
  simp only [hFixed.reading]
  rcases components path with
    _ | ⟨pid, _ | ⟨dir, _ | ⟨item, _ | ⟨more, rest⟩⟩⟩⟩
  · intro hDeep
    simp only [List.nil_append, Node, Option.some.injEq,
      exists_eq_left']
    exact pidExists_iff hPrints name
  · intro hDeep
    rw [or_iff_left (hDeep (by simp))]
    cases hExists : pidExists pids procs pid with
    | false =>
        simp [Node, hExists]
    | true =>
        simp [Node, hExists, isSome_findEntryKind]
  · intro hDeep
    rw [or_iff_left (hDeep (by simp))]
    cases hExists : pidExists pids procs pid with
    | false =>
        simp [Node, hExists]
    | true =>
        simp only [Node, hExists, List.cons_append,
          List.nil_append, true_and, if_true,
          ← findEntryKind_eq_dir_iff]
        cases findEntryKind dir with
        | none =>
            simp
        | some kind =>
            cases kind with
            | file file =>
                simp
            | dir procDir =>
                simp
  · intro hDeep
    rw [or_iff_left (hDeep (by simp))]
    cases hExists : pidExists pids procs pid with
    | false =>
        simp [Node, hExists]
    | true =>
        simp only [Node, hExists, if_true, List.cons_append,
          List.nil_append, false_iff]
        rintro ⟨names, hNames, hMem⟩
        split at hNames
        · split at hNames
          · cases hNames
            cases hMem
          · cases hNames
        · split at hNames
          · cases hNames
            cases hMem
          · cases hNames
        · cases hNames
  · intro hDeep
    rw [or_iff_left (hDeep (by simp))]
    simp [Node]

/- Another spelling of a pid is not listed. -/
theorem not_lists_of_respelled
    (hPrints : pids.Prints procs)
    (hFixed : host.Fixed procs)
    {path name : String}
    (hRespelled :
      Respelled pids procs (components path) name) :
    ¬ Lists pids host path name := by
  rcases hRespelled with
    ⟨hRoot, n, hParse, hLive, hShown⟩
  rintro ⟨names, hNames, hMem⟩
  simp only [walk, hRoot, hFixed.reading,
    Option.some.injEq] at hNames
  subst hNames
  rcases (mem_listPids_iff name).mp hMem with
    ⟨pid, hPid, rfl⟩
  rcases hPrints pid hPid with ⟨n', hFits, rfl, hRepr⟩
  rw [hRepr, parseUsize_repr hFits] at hParse
  cases hParse
  exact hShown rfl

/-
  For every table of processes whose pids are printed in
  decimal, the four lookups of a path agree exactly when the
  path is not an unlisted name below a directory of a live
  process, and a name is found below a path exactly when it
  is listed there, except for another spelling of a live pid
  at the root.
-/
theorem lookups_agree_iff
    (pids : PidText Pid)
    (procs : ProcTable Pid)
    (host : Host (ProcTable Pid))
    (hPrints : pids.Prints procs)
    (hFixed : host.Fixed procs) :
    (∀ path,
      Agree pids host path ↔
        ¬ Unlisted pids procs (components path)) ∧
    (∀ path name : String,
      name ≠ "" → '/' ∉ name.toList →
        ((StatSucceeds pids host (path ++ "/" ++ name) ↔
            Lists pids host path name) ↔
          ¬ Respelled pids procs (components path)
            name)) := by
  refine ⟨agree_iff hFixed, ?_⟩
  intro path name hNonempty hPlain
  have hComponents :
      components (path ++ "/" ++ name) =
        components path ++ [name] := by
    rw [components_append_slash,
      components_of_plain hNonempty hPlain]
  rw [statSucceeds_iff hFixed, hComponents,
    node_concat_iff hPrints hFixed]
  constructor
  · intro hIff hRespelled
    exact not_lists_of_respelled hPrints hFixed hRespelled
      (hIff.mp (Or.inr hRespelled))
  · intro hPlainly
    exact or_iff_left hPlainly

end ProcFs

end Planten

------------------------------------------------------------
-- One Process
------------------------------------------------------------

namespace Planten

namespace ProcFs

/- Pids that are numbers. -/
def numberPids : PidText Nat :=
  ⟨id, Nat.repr⟩

/- A table of one process, with pid 1. -/
def oneProcess : ProcTable Nat :=
  [(1, ⟨1, "init", ["/sbin/init"], .sleep, none, "0", 4096,
    8192, none, none, none, none⟩)]

def quietHost : Host (ProcTable Nat) :=
  ⟨fun _ => 0, fun _ => oneProcess⟩

theorem prints_oneProcess :
    numberPids.Prints oneProcess := by
  intro pid hMem
  cases List.mem_singleton.mp hMem
  exact ⟨1, by decide, rfl, rfl⟩

theorem fixed_quietHost : quietHost.Fixed oneProcess :=
  ⟨fun _ => rfl, fun _ => le_refl _⟩

/- The files of the process are found by all four lookups. -/
theorem lookups_agree_of_cmdline :
    Agree numberPids quietHost "/1/cmdline" :=
  ((lookups_agree_iff numberPids oneProcess quietHost
    prints_oneProcess fixed_quietHost).1 "/1/cmdline").mpr
    (by
      rintro ⟨pid, dir, item, procDir, hEq, _⟩
      have hComponents :
          components "/1/cmdline" = ["1", "cmdline"] := by
        decide
      cases hComponents.symm.trans hEq)

/-
  An open takes a descriptor that is not listed, and pid 1 is
  found under the name `+1`, which the root does not list.
-/
theorem lookups_disagree :
    ((open_ numberPids quietHost "/1/fd/9").isSome ∧
        walk numberPids quietHost "/1/fd/9" = none ∧
        ¬ Agree numberPids quietHost "/1/fd/9") ∧
      StatSucceeds numberPids quietHost "/+1" ∧
        ¬ Lists numberPids quietHost "" "+1" := by
  have hOpen :
      (open_ numberPids quietHost "/1/fd/9").isSome := by
    decide +kernel
  have hWalk :
      walk numberPids quietHost "/1/fd/9" = none := by
    decide +kernel
  refine ⟨⟨hOpen, hWalk, ?_⟩, ?_, ?_⟩
  · rintro (⟨hSome, _⟩ | ⟨_, hClosed, _⟩)
    · rw [hWalk] at hSome
      cases hSome
    · rw [hClosed] at hOpen
      cases hOpen
  · exact ⟨⟨"+1", [], pseudoDirMode, "root", "root", 0, 0⟩,
      by decide +kernel⟩
  · rintro ⟨names, hNames, hMem⟩
    have hRoot :
        walk numberPids quietHost "" = some ["1"] := by
      decide +kernel
    cases hRoot.symm.trans hNames
    exact absurd hMem (by decide)

end ProcFs

end Planten
