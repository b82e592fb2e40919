import Planten.PseudoFs.Stats

/-
  What the service file system serves.

  The name of a service is looked up where the path ends with
  it, and joined into a host path, not looked up, where the
  path goes on to its file.  So the files served are those of
  any name, and `..` is one.  A walk, on the other hand,
  finds no file at all.

  Key definitions include:
    * `joinPath`
    * `SrvContent`
    * `SrvFs.Served`
    * `SrvFs.Consults`
    * `FsServer.Agree`

  Key theorems include:
    * `SrvFs.isSome_open`
    * `SrvFs.consults_read`
    * `SrvFs.beneath_ctlPath_iff`
    * `SrvFs.serves_listed_iff`
-/

------------------------------------------------------------
-- Host Paths
------------------------------------------------------------

namespace Planten

/- `Path::join`; an absolute name replaces the path. -/
def joinPath (path name : String) : String :=
  if name.toList.head? = some '/' then
    name
  else if path = "" ∨ path.toList.getLast? = some '/' then
    path ++ name
  else
    path ++ "/" ++ name

/-
  The names lead out of the directory they start in, `depth`
  levels above the present one.
-/
def climbsOut : Nat → List String → Bool
| _, [] => false
| depth, name :: names =>
    if name = "." then
      climbsOut depth names
    else if name = ".." then
      match depth with
      | 0 => true
      | depth + 1 => climbsOut depth names
    else
      climbsOut (depth + 1) names

/- The file is reached without leaving the directory. -/
def Beneath (dir file : String) : Prop :=
  ∃ names,
    components file = components dir ++ names ∧
      climbsOut 0 names = false

/- A name that is no path is joined as one component. -/
theorem components_joinPath
    (path : String)
    {name : String}
    (hNonempty : name ≠ "")
    (hPlain : '/' ∉ name.toList) :
    components (joinPath path name) =
      components path ++ [name] := by
  have hName : components name = [name] :=
    components_of_plain hNonempty hPlain
  have hRelative : name.toList.head? ≠ some '/' := by
    intro hHead
    exact hPlain (List.mem_of_head? hHead)
  rw [joinPath, if_neg hRelative]
  split
  · rename_i hOpen
    rcases hOpen with rfl | hSlash
    · rw [String.empty_append, hName, components_empty,
        List.nil_append]
    · rcases List.getLast?_eq_some_iff.mp hSlash with
        ⟨front, hFront⟩
      have hPath : path = String.ofList front ++ "/" := by
        rw [← String.toList_inj, hFront,
          String.toList_append, String.toList_ofList]
        rfl
      have hDir := components_append_slash
        (String.ofList front) ""
      rw [String.append_empty, components_empty,
        List.append_nil] at hDir
      rw [hPath, components_append_slash, hName, hDir]
  · rw [components_append_slash, hName]

/- Names below the directory do not lead out of it. -/
theorem beneath_iff
    {dir file : String}
    {names : List String}
    (hFile : components file = components dir ++ names) :
    Beneath dir file ↔ climbsOut 0 names = false := by
  constructor
  · rintro ⟨names', hFile', hStays⟩
    have hNames : names = names' :=
      List.append_cancel_left (hFile.symm.trans hFile')
    rw [hNames]
    exact hStays
  · intro hStays
    exact ⟨names, hFile, hStays⟩

end Planten

------------------------------------------------------------
-- The Files of the Host
------------------------------------------------------------

namespace Planten

/-
  The service root as the host holds it: its path, its
  entries, and what is found at every path of the host.
-/
structure SrvContent where
  dir : String
  entries : Option (List (Option RootEntry))
  files : String → Option (Option Bytes)

namespace SrvFs

/- `root.join(name).join("ctl")`. -/
def ctlPath (dir service : String) : String :=
  joinPath (joinPath dir service) "ctl"

/- What the calls read of the content. -/
def rootOf (content : SrvContent) : SrvRoot :=
  ⟨content.entries,
    fun service =>
      content.files (ctlPath content.dir service)⟩

/- A host whose content does not change. -/
def hostOf
    (content : SrvContent)
    (clock : Clock) : Host SrvRoot :=
  ⟨clock, fun _ => rootOf content⟩

/- The root, the listed services, and their files. -/
def Served (root : SrvRoot) : List String → Prop
| [] => True
| [service] => service ∈ listServices root
| [service, file] =>
    service ∈ listServices root ∧ file ∈ SERVICE_FILES
| _ => False

/- The file of a name that is not listed. -/
def Unlisted
    (root : SrvRoot)
    (comps : List String) : Prop :=
  ∃ service,
    comps = [service, "ctl"] ∧ service ∉ listServices root

/- The path of a file of some name, listed or not. -/
def NamesFile (comps : List String) : Prop :=
  ∃ service, comps = [service, "ctl"]

/-
  The answer of a call tells something of the file: with
  another content there, and the same elsewhere, it differs.
-/
def Consults
    {α : Type}
    (call : Host SrvRoot → α)
    (content : SrvContent)
    (clock : Clock)
    (file : String) : Prop :=
  ∃ files,
    (∀ other, other ≠ file →
        files other = content.files other) ∧
      call (hostOf { content with files := files } clock) ≠
        call (hostOf content clock)

/- One of the four lookups of the path reads the file. -/
def Reads
    (content : SrvContent)
    (clock : Clock)
    (path file : String) : Prop :=
  Consults (fun host => walk host path) content clock file ∨
    Consults (fun host => open_ host path) content clock
      file ∨
    Consults (fun host => read host path) content clock
      file ∨
    Consults (fun host => stat host path) content clock file

/- A component of a path is a name of one level. -/
theorem components_ctlPath
    {path service : String}
    {rest : List String}
    (dir : String)
    (hPath : components path = service :: rest) :
    components (ctlPath dir service) =
      components dir ++ [service, "ctl"] := by
  have hMem : service ∈ components path := by
    rw [hPath]
    exact List.mem_cons_self
  have hNonempty : service ≠ "" := by
    have hKept := (List.mem_filter.mp hMem).2
    simpa using hKept
  rw [ctlPath, components_joinPath _ (by decide) (by decide),
    components_joinPath _ hNonempty
      (slashFree_of_mem_components hMem),
    List.append_assoc]
  rfl

/- Of all names, only `..` leads out of the root. -/
theorem beneath_ctlPath_iff
    {path service : String}
    {rest : List String}
    (dir : String)
    (hPath : components path = service :: rest) :
    Beneath dir (ctlPath dir service) ↔ service ≠ ".." := by
  rw [beneath_iff (components_ctlPath dir hPath)]
  by_cases hUp : service = ".."
  · subst hUp
    exact iff_of_false (by decide) (fun hNot => hNot rfl)
  · apply iff_of_true _ hUp
    have hLast (depth : Nat) :
        climbsOut depth ["ctl"] = false := by
      simp [climbsOut]
    rw [climbsOut, if_neg hUp, hLast, hLast, ite_self]

end SrvFs

end Planten

------------------------------------------------------------
-- What the Calls Find
------------------------------------------------------------

namespace Planten

/- The four lookups of a path succeed together or fail. -/
def FsServer.Agree
    {H : Type}
    (fs : FsServer H)
    (host : Host H)
    (path : String) : Prop :=
  ((fs.walk host path).isSome ∧
      (fs.open_ host path).isSome ∧
      (fs.read host path).isSome ∧
      ∃ inode, fs.stat host path = .ok (some inode)) ∨
    (fs.walk host path = none ∧
      fs.open_ host path = none ∧
      fs.read host path = none ∧
      fs.stat host path = .ok none)

namespace SrvFs

variable (host : Host SrvRoot) (path : String)

theorem mem_SERVICE_FILES_iff (file : String) :
    file ∈ SERVICE_FILES ↔ file = "ctl" :=
  List.mem_singleton

theorem not_served_iff
    {root : SrvRoot}
    {comps : List String}
    (hFile : NamesFile comps) :
    ¬ Served root comps ↔ Unlisted root comps := by
  rcases hFile with ⟨service, rfl⟩
  constructor
  · intro hNot
    refine ⟨service, rfl, ?_⟩
    intro hListed
    exact hNot ⟨hListed, List.mem_cons_self⟩
  · rintro ⟨service', hComps, hUnlisted⟩ ⟨hListed, _⟩
    cases hComps
    exact hUnlisted hListed

/- A walk finds the directories, and no file. -/
theorem isSome_walk :
    (walk host path).isSome ↔
      Served (host.reading 0) (components path) ∧
        ¬ NamesFile (components path) := by
  unfold walk
  rcases components path with
    _ | ⟨service, _ | ⟨file, _ | ⟨more, rest⟩⟩⟩
  · simp [Served, NamesFile]
  · simp [Served, NamesFile]
  · simp [Served, NamesFile, mem_SERVICE_FILES_iff]
  · simp [Served]

/- An open takes the file of any name. -/
theorem isSome_open :
    (open_ host path).isSome ↔
      Served (host.reading 0) (components path) ∨
        NamesFile (components path) := by
  unfold open_
  rcases components path with
    _ | ⟨service, _ | ⟨file, _ | ⟨more, rest⟩⟩⟩
  · simp [Served]
  · simp [Served, NamesFile]
  · simp only [Served, NamesFile, mem_SERVICE_FILES_iff]
    simp
  · simp [Served, NamesFile]

theorem isSome_read
    (hDir : ¬ NamesFile (components path)) :
    (read host path).isSome ↔
      Served (host.reading 0) (components path) := by
  revert hDir
  unfold read
  rcases components path with
    _ | ⟨service, _ | ⟨file, _ | ⟨more, rest⟩⟩⟩
  · simp [Served]
  · simp [Served]
  · intro hDir
    have hOther : file ∉ SERVICE_FILES := by
      rw [mem_SERVICE_FILES_iff]
      rintro rfl
      exact hDir ⟨service, rfl⟩
    simp [Served, hOther]
  · simp [Served]

/- A stat finds what a read finds. -/
theorem finds_iff :
    fs.Finds host path ↔ (read host path).isSome := by
  have hMake (name : String) (mode : UInt32)
      (data : Bytes) :
      statAttrs name mode data (fun _ => 0) =
        .ok (some _) :=
    statAttrs_of_epoch (le_refl _) name mode data
  have hNothing :
      ¬ ∃ inode,
        (pure none : Except Panic (Option Attrs)) =
          .ok (some inode) := by
    rintro ⟨inode, hNone⟩
    cases hNone
  unfold FsServer.Finds fs stat read
  simp only [Host.atEpoch, hMake]
  rcases components path with
    _ | ⟨service, _ | ⟨file, _ | ⟨more, rest⟩⟩⟩
  · simp
  · by_cases hListed :
      service ∈ listServices (host.reading 0)
    · simp [hListed]
    · simpa [hListed] using hNothing
  · by_cases hFile : file ∈ SERVICE_FILES
    · simp only [if_pos hFile]
      cases readServiceCtls (host.reading 0) service with
      | none =>
          simpa using hNothing
      | some data =>
          simp
    · simpa [hFile] using hNothing
  · simpa using hNothing

/- The lookups succeed on nothing else. -/
def OnlyServed
    (host : Host SrvRoot)
    (path : String) : Prop :=
  ((open_ host path).isSome ∨
      (read host path).isSome ∨
      ∃ inode, stat host path = .ok (some inode)) →
    Served (host.reading 0) (components path)

/- They succeed on the file of a name that is not listed. -/
theorem onlyServed_iff :
    OnlyServed host path ↔
      ¬ Unlisted (host.reading 0) (components path) := by
  constructor
  · intro hOnly hUnlisted
    rcases hUnlisted with ⟨service, hComps, hMissing⟩
    have hFile : NamesFile (components path) :=
      ⟨service, hComps⟩
    have hOpen : (open_ host path).isSome :=
      (isSome_open host path).mpr (Or.inr hFile)
    apply (not_served_iff hFile).mpr
      ⟨service, hComps, hMissing⟩
    exact hOnly (Or.inl hOpen)
  · intro hListed hSucceeds
    by_cases hFile : NamesFile (components path)
    · by_contra hNot
      exact hListed ((not_served_iff hFile).mp hNot)
    · rcases hSucceeds with hOpen | hRead | ⟨inode, hStat⟩
      · rcases (isSome_open host path).mp hOpen with
          hServed | hNamed
        · exact hServed
        · exact (hFile hNamed).elim
      · exact (isSome_read host path hFile).mp hRead
      · have hFinds : fs.Finds host path :=
          (statLaw.finds_of_some hStat).1
        apply (isSome_read host path hFile).mp
        exact (finds_iff host path).mp hFinds

/-
  They agree on the directories, where the clock is not
  before the epoch, and on nothing that names a file.
-/
theorem agree_iff :
    fs.Agree host path ↔
      ¬ NamesFile (components path) ∧
        (Served (host.reading 0) (components path) →
          0 ≤ host.clock 1) := by
  have hWalk := isSome_walk host path
  have hOpen := isSome_open host path
  constructor
  · rintro (⟨hWalked, _, _, inode, hStat⟩ |
      ⟨_, hClosed, _⟩)
    · refine ⟨(hWalk.mp hWalked).2, ?_⟩
      intro _
      exact (statLaw.finds_of_some hStat).2
    · have hNone : ¬ (open_ host path).isSome := by
        rw [Option.not_isSome_iff_eq_none]
        exact hClosed
      rw [hOpen, not_or] at hNone
      exact ⟨hNone.2, fun hServed => (hNone.1 hServed).elim⟩
  · rintro ⟨hDir, hClock⟩
    have hRead := isSome_read host path hDir
    have hFinds := (finds_iff host path).trans hRead
    by_cases hServed :
      Served (host.reading 0) (components path)
    · apply Or.inl
      refine ⟨hWalk.mpr ⟨hServed, hDir⟩,
        hOpen.mpr (Or.inl hServed), hRead.mpr hServed, ?_⟩
      exact statLaw.found host path (hFinds.mpr hServed)
        (hClock hServed)
    · apply Or.inr
      refine ⟨?_, ?_, ?_, ?_⟩
      · apply Option.not_isSome_iff_eq_none.mp
        exact fun hSome => hServed (hWalk.mp hSome).1
      · apply Option.not_isSome_iff_eq_none.mp
        intro hSome
        exact (hOpen.mp hSome).elim hServed hDir
      · apply Option.not_isSome_iff_eq_none.mp
        exact fun hSome => hServed (hRead.mp hSome)
      · apply statLaw.missing host path
        exact fun hFound => hServed (hFinds.mp hFound)

end SrvFs

end Planten

------------------------------------------------------------
-- The Files That Are Read
------------------------------------------------------------

namespace Planten

namespace SrvFs

variable {content : SrvContent} {clock : Clock}
variable {path file : String}

/- Contents that differ where no file of the path is. -/
structure SameFile
    (content content' : SrvContent)
    (path : String) : Prop where
  entries : content'.entries = content.entries
  ctl :
    ∀ service,
      components path = [service, "ctl"] →
        (rootOf content').ctl service =
          (rootOf content).ctl service

theorem listServices_rootOf
    {content content' : SrvContent}
    (hSame : SameFile content content' path) :
    listServices (rootOf content') =
      listServices (rootOf content) := by
  unfold listServices rootOf
  rw [hSame.entries]

theorem walk_congr
    {content' : SrvContent}
    (hSame : SameFile content content' path) :
    walk (hostOf content' clock) path =
      walk (hostOf content clock) path := by
  unfold walk hostOf
  simp only [listServices_rootOf hSame]

theorem open_congr
    {content' : SrvContent}
    (hSame : SameFile content content' path) :
    open_ (hostOf content' clock) path =
      open_ (hostOf content clock) path := by
  unfold open_ hostOf
  simp only [listServices_rootOf hSame]

theorem read_congr
    {content' : SrvContent}
    (hSame : SameFile content content' path) :
    read (hostOf content' clock) path =
      read (hostOf content clock) path := by
  have hCtl := hSame.ctl
  unfold read hostOf
  simp only [listServices_rootOf hSame]
  revert hCtl
  rcases components path with
    _ | ⟨service, _ | ⟨file, _ | ⟨more, rest⟩⟩⟩
  · intro _
    rfl
  · intro _
    rfl
  · intro hCtl
    by_cases hFile : file = "ctl"
    · subst hFile
      simp only [readServiceCtls, hCtl service rfl]
    · have hOther : file ∉ SERVICE_FILES := by
        rw [mem_SERVICE_FILES_iff]
        exact hFile
      simp only [if_neg hOther]
  · intro _
    rfl

theorem stat_congr
    {content' : SrvContent}
    (hSame : SameFile content content' path) :
    stat (hostOf content' clock) path =
      stat (hostOf content clock) path := by
  have hRead :
      read (hostOf content' clock) path =
        read (hostOf content clock) path :=
    read_congr hSame
  unfold stat
  rw [hRead]
  simp only [hostOf, listServices_rootOf hSame]
  rfl

/- A read of a file shows a change of its content. -/
theorem consults_read
    {service : String}
    (hPath : components path = [service, "ctl"]) :
    Consults (fun host => read host path) content clock
      (ctlPath content.dir service) := by
  have hRead (content' : SrvContent) :
      read (hostOf content' clock) path =
        readServiceCtls (rootOf content') service := by
    unfold read
    rw [hPath]
    exact if_pos List.mem_cons_self
  -- an unreadable file is replaced by an empty one, and
  -- anything else by an unreadable one
  let found : Option (Option Bytes) :=
    if content.files (ctlPath content.dir service) =
        some none then
      some (some [])
    else
      some none
  refine ⟨Function.update content.files
    (ctlPath content.dir service) found, ?_, ?_⟩
  · intro other hOther
    exact Function.update_of_ne hOther _ _
  · simp only [hRead, readServiceCtls, rootOf,
      Function.update_self]
    cases hFile :
        content.files (ctlPath content.dir service) with
    | none =>
        simp [found, hFile]
    | some data =>
        cases data with
        | none =>
            simp [found, hFile]
        | some data =>
            simp [found, hFile]

/- The only file a path reads is that of its name. -/
theorem reads_iff :
    Reads content clock path file ↔
      ∃ service,
        components path = [service, "ctl"] ∧
          file = ctlPath content.dir service := by
  constructor
  · intro hReads
    by_contra hNone
    have hSame
        (files : String → Option (Option Bytes))
        (hFiles :
          ∀ other, other ≠ file →
            files other = content.files other) :
        SameFile content { content with files := files }
          path := by
      refine ⟨rfl, ?_⟩
      intro service hPath
      apply hFiles
      intro hFile
      exact hNone ⟨service, hPath, hFile.symm⟩
    rcases hReads with
      ⟨files, hFiles, hDiffers⟩ |
      ⟨files, hFiles, hDiffers⟩ |
      ⟨files, hFiles, hDiffers⟩ |
      ⟨files, hFiles, hDiffers⟩
    · exact hDiffers (walk_congr (hSame files hFiles))
    · exact hDiffers (open_congr (hSame files hFiles))
    · exact hDiffers (read_congr (hSame files hFiles))
    · exact hDiffers (stat_congr (hSame files hFiles))
  · rintro ⟨service, hPath, rfl⟩
    exact Or.inr (Or.inr (Or.inl (consults_read hPath)))

/- The only files read are those of listed services. -/
def ReadsListed
    (content : SrvContent)
    (clock : Clock)
    (path : String) : Prop :=
  ∀ file,
    Reads content clock path file →
      ∃ service ∈ listServices (rootOf content),
        components path = [service, "ctl"] ∧
          file = ctlPath content.dir service

/- No file is read outside the service root. -/
def ReadsBeneath
    (content : SrvContent)
    (clock : Clock)
    (path : String) : Prop :=
  ∀ file,
    Reads content clock path file → Beneath content.dir file

theorem readsListed_iff :
    ReadsListed content clock path ↔
      ¬ Unlisted (rootOf content) (components path) := by
  constructor
  · rintro hListed ⟨service, hPath, hUnlisted⟩
    rcases hListed _ (reads_iff.mpr ⟨service, hPath, rfl⟩)
      with ⟨service', hMem, hPath', _⟩
    cases hPath.symm.trans hPath'
    exact hUnlisted hMem
  · intro hListed file hReads
    rcases reads_iff.mp hReads with ⟨service, hPath, hFile⟩
    refine ⟨service, ?_, hPath, hFile⟩
    by_contra hMissing
    exact hListed ⟨service, hPath, hMissing⟩

theorem readsBeneath_iff :
    ReadsBeneath content clock path ↔
      components path ≠ ["..", "ctl"] := by
  constructor
  · intro hBeneath hPath
    have hInside :=
      hBeneath _ (reads_iff.mpr ⟨"..", hPath, rfl⟩)
    exact (beneath_ctlPath_iff content.dir hPath).mp hInside
      rfl
  · intro hInside file hReads
    rcases reads_iff.mp hReads with ⟨service, hPath, rfl⟩
    apply (beneath_ctlPath_iff content.dir hPath).mpr
    rintro rfl
    exact hInside hPath

/-
  For every content of the service root and every path, an
  open, a read and a stat succeed on served paths only, and
  read files of listed services only, exactly when the path
  is not that of a file of an unlisted name.  They stay
  inside the root exactly when that name is not `..`.  The
  four lookups agree exactly when the path is that of no
  file, and a clock that is looked at has reached the epoch.
-/
theorem serves_listed_iff
    (content : SrvContent)
    (clock : Clock)
    (path : String) :
    (OnlyServed (hostOf content clock) path ↔
        ¬ Unlisted (rootOf content) (components path)) ∧
      (ReadsListed content clock path ↔
        ¬ Unlisted (rootOf content) (components path)) ∧
      (ReadsBeneath content clock path ↔
        components path ≠ ["..", "ctl"]) ∧
      (fs.Agree (hostOf content clock) path ↔
        ¬ NamesFile (components path) ∧
          (Served (rootOf content) (components path) →
            0 ≤ clock 1)) :=
  ⟨onlyServed_iff (hostOf content clock) path,
    readsListed_iff, readsBeneath_iff,
    agree_iff (hostOf content clock) path⟩

end SrvFs

end Planten

------------------------------------------------------------
-- A File outside the Root
------------------------------------------------------------

namespace Planten

namespace SrvFs

/-
  A service root with one service, and a file `ctl` in the
  directory that holds the root.
-/
def oneService : SrvContent where
  dir := "/srv"
  entries := some [some ⟨some "foo", true⟩]
  files := fun file =>
    if file = "/srv/../ctl" ∨ file = "/ctl" then
      some (some [115])
    else
      none

/- The server finds the root of `oneService` unchanged. -/
def oneServiceAccess : Access SrvRoot :=
  ⟨false, fun _ => hostOf oneService (fun _ => 0)⟩

/- A client attaches, walks with one name, and reads. -/
def readOutside : Except Panic Reply := do
  let handle := ProcSrv.handle fs oneServiceAccess
  let (fids, _) ← handle [] (.tattach 0 0 "" "")
  let (fids, _) ← handle fids (.twalk 0 1 ["../ctl"])
  let (_, reply) ← handle fids (.tread 1 0 100)
  pure reply

theorem components_dotdot :
    components "/../ctl" = ["..", "ctl"] := by
  decide

/-
  The file is served, to a client that walks to it by one
  name, although it is outside the root and of no service.
  And a walk does not find the file of the listed service,
  which an open finds.
-/
theorem serves_unlisted :
    ¬ OnlyServed (hostOf oneService (fun _ => 0))
        "/../ctl" ∧
      ¬ ReadsListed oneService (fun _ => 0) "/../ctl" ∧
      ¬ ReadsBeneath oneService (fun _ => 0) "/../ctl" ∧
      ¬ fs.Agree (hostOf oneService (fun _ => 0))
          "/foo/ctl" ∧
      readOutside = .ok (.rread [115]) := by
  have hUnlisted :
      Unlisted (rootOf oneService)
        (components "/../ctl") :=
    ⟨"..", components_dotdot, by decide⟩
  refine ⟨?_, ?_, ?_, ?_, ?_⟩
  · rw [onlyServed_iff]
    exact fun hListed => hListed hUnlisted
  · rw [readsListed_iff]
    exact fun hListed => hListed hUnlisted
  · rw [readsBeneath_iff]
    exact fun hInside => hInside components_dotdot
  · rw [agree_iff]
    rintro ⟨hDir, _⟩
    exact hDir ⟨"foo", by decide⟩
  · decide +kernel

end SrvFs

end Planten
