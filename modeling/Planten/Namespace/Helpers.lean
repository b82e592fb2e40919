import Planten.Namespace.Mounts

/-
  The tools that update the stored namespace: `bind`,
  `mount` and `10_ns`, with the shell `10_ns` runs when it
  is given no command.

  A tool is modelled by what it does to the stored file: it
  loads the file, and what it does next depends on what it
  read; it saves a namespace over the file; or it is done.
  A command run from the shell, or in place of the shell,
  is a process of its own.  The model is of Linux, where
  `10_ns` ensures the `/proc` and `/srv` mounts.

  Key definitions include:
    * `Script`
    * `bindMain`
    * `mountMain`
    * `processFlags`
    * `shell`
    * `tenNsMain`
    * `Helper.entries`
    * `Script.Delivers`

  Key theorems include:
    * `processFlags_append`
    * `delivers_shell`
    * `Helper.delivers`
-/

------------------------------------------------------------
-- Scripts
------------------------------------------------------------

namespace Planten

/- The accesses of a process to the file, in order. -/
inductive Script where
| done
| load (next : Option Namespace → Script)
| save (ns : Namespace) (next : Script)

end Planten

------------------------------------------------------------
-- bind and mount
------------------------------------------------------------

namespace Planten

/- The arguments include the name of the program. -/
def bindMain (args : List String) : Script :=
  match args with
  | [_, new, old] =>
      .load (fun loaded =>
        let ns := loaded.getD Namespace.new
        .save (ns.bind new old) .done)
  | _ => .done

/- One old path is bound, several make a union. -/
def mountPaths
    (ns : Namespace)
    (new : String)
    (old : List String) : Namespace :=
  match old with
  | [path] => ns.bind new path
  | paths => ns.unionMulti new paths

def mountMain (args : List String) : Script :=
  match args with
  | _ :: new :: path :: paths =>
      .load (fun loaded =>
        let ns := loaded.getD Namespace.new
        .save (mountPaths ns new (path :: paths)) .done)
  | _ => .done

end Planten

------------------------------------------------------------
-- 10_ns
------------------------------------------------------------

namespace Planten

/- The flag loop: `none` is a flag without its operands. -/
def processFlags
    (ns : Namespace) :
    List String → Option (Namespace × List String)
| [] => some (ns, [])
| flag :: rest =>
    if flag = "-b" then
      match rest with
      | new :: old :: rest =>
          processFlags (ns.bind new old) rest
      | _ => none
    else if flag = "-u" then
      match rest with
      | new :: old :: rest =>
          processFlags (ns.union new old) rest
      | _ => none
    else if flag = "-p9" then
      match rest with
      | new :: addr :: path :: rest =>
          processFlags (ns.p9 new addr path) rest
      | _ => none
    else
      some (ns, flag :: rest)

def bindBuiltin
    (args : List String)
    (ns : Namespace) : Namespace :=
  match args with
  | [new, old] => ns.bind new old
  | _ => ns

def mountBuiltin
    (args : List String)
    (ns : Namespace) : Namespace :=
  match args with
  | new :: path :: paths =>
      mountPaths ns new (path :: paths)
  | _ => ns

def nsctlBuiltin
    (_ : List String)
    (ns : Namespace) : Namespace :=
  ns

def builtins
    (command : String) :
    Option (List String → Namespace → Namespace) :=
  if command = "bind" then
    some bindBuiltin
  else if command = "mount" then
    some mountBuiltin
  else if command = "nsctl" then
    some nsctlBuiltin
  else
    none

/-
  The lines are as `read_line` returns them.  Every builtin
  is followed by a save, a refused one as well; other
  commands leave the shell's copy alone.
-/
def shell
    (ns : Namespace) :
    List String → Script
| [] => .done
| line :: lines =>
    if line = "" ∨ trim line = "exit" then
      .done
    else
      match splitWhitespace (trim line) with
      | [] => shell ns lines
      | command :: args =>
          match builtins command with
          | some builtin =>
              .save (builtin args ns)
                (shell (builtin args ns) lines)
          | none => shell ns lines

/-
  Without even a program name, the slice of the arguments
  left for the command panics, after the save.
-/
def tenNsMain
    (args input : List String) : Script :=
  .load (fun loaded =>
    let ns := loaded.getD Namespace.new
    let ns := ns.ensureProcfs.ensureSrvfs
    match args with
    | [] => .save ns .done
    | _ :: flags =>
        match processFlags ns flags with
        | none => .done
        | some (ns, []) => .save ns (shell ns input)
        | some (ns, _ :: _) => .save ns .done)

end Planten

------------------------------------------------------------
-- Helpers
------------------------------------------------------------

namespace Planten

/- A tool with its arguments, and the lines it is typed. -/
inductive Helper where
| bind (args : List String)
| mount (args : List String)
| tenNs (args input : List String)
deriving DecidableEq, Repr

/- The entries the lines typed to a shell add. -/
def shellEntries : List String → List MountEntry
| [] => []
| line :: lines =>
    if line = "" ∨ trim line = "exit" then
      []
    else
      match splitWhitespace (trim line) with
      | [] => shellEntries lines
      | command :: args =>
          match builtins command with
          | some builtin =>
              (builtin args Namespace.new).mounts ++
                shellEntries lines
          | none => shellEntries lines

def bindEntries (args : List String) : List MountEntry :=
  match args with
  | [_, new, old] => (Namespace.new.bind new old).mounts
  | _ => []

def mountEntries (args : List String) : List MountEntry :=
  match args with
  | _ :: new :: path :: paths =>
      (mountPaths Namespace.new new (path :: paths)).mounts
  | _ => []

def tenNsEntries
    (args input : List String) : List MountEntry :=
  match args with
  | [] => []
  | _ :: flags =>
      match processFlags Namespace.new flags with
      | none => []
      | some (ns, []) => ns.mounts ++ shellEntries input
      | some (ns, _ :: _) => ns.mounts

namespace Helper

def main : Helper → Script
| bind args => bindMain args
| mount args => mountMain args
| tenNs args input => tenNsMain args input

/-
  The entries a helper is asked to add: what it would leave
  in an empty namespace.  One that refuses its arguments
  adds nothing.
-/
def entries : Helper → List MountEntry
| bind args => bindEntries args
| mount args => mountEntries args
| tenNs args input => tenNsEntries args input

end Helper

end Planten

------------------------------------------------------------
-- Additions
------------------------------------------------------------

namespace Planten

namespace Script

/-
  A process that holds what it last loaded or saved only
  ever appends to it, and saves all of these entries before
  it is done.
-/
def Delivers
    (held : List MountEntry) :
    Script → List MountEntry → Prop
| done, es => es = []
| load next, es =>
    ∀ loaded,
      Delivers (loaded.getD Namespace.new).mounts
        (next loaded) es
| save ns next, es =>
    ∃ adds later,
      ns.mounts = held ++ adds ∧
        Delivers ns.mounts next later ∧
        ∀ e ∈ es, e ∈ adds ∨ e ∈ later

end Script

theorem mounts_mountPaths
    (ns : Namespace)
    (new : String)
    (old : List String) :
    (mountPaths ns new old).mounts =
      ns.mounts ++
        (mountPaths Namespace.new new old).mounts := by
  unfold mountPaths
  split <;> rfl

/- A builtin appends what it adds to any namespace. -/
theorem mounts_of_builtin
    {command : String}
    {builtin : List String → Namespace → Namespace}
    (hBuiltin : builtins command = some builtin)
    (args : List String)
    (ns : Namespace) :
    (builtin args ns).mounts =
      ns.mounts ++
        (builtin args Namespace.new).mounts := by
  unfold builtins at hBuiltin
  split_ifs at hBuiltin
  · cases hBuiltin
    unfold bindBuiltin
    split
    · rfl
    · exact (List.append_nil _).symm
  · cases hBuiltin
    unfold mountBuiltin
    split
    · exact mounts_mountPaths ns _ _
    · exact (List.append_nil _).symm
  · cases hBuiltin
    exact (List.append_nil _).symm

/- Whatever is in front of a namespace stays there. -/
theorem processFlags_append
    (front : List MountEntry)
    (ns : Namespace)
    (args : List String) :
    processFlags ⟨front ++ ns.mounts⟩ args =
      (processFlags ns args).map (fun result =>
        (⟨front ++ result.1.mounts⟩, result.2)) := by
  have hAdd (ns : Namespace) (target mount) :
      (⟨front ++ ns.mounts⟩ :
          Namespace).addMountEntry target mount =
        ⟨front ++ (ns.addMountEntry target
          mount).mounts⟩ := by
    simp [Namespace.addMountEntry]
  induction ns, args using processFlags.induct with
  | case1 ns => rfl
  | case2 ns new old rest ih =>
      simpa [processFlags, Namespace.bind, hAdd] using ih
  | case4 ns new old rest _ ih =>
      simpa [processFlags, Namespace.union, hAdd] using ih
  | case6 ns new addr path rest _ _ ih =>
      simpa [processFlags, Namespace.p9, hAdd] using ih
  | case8 ns flag rest hBind hUnion hP9 =>
      unfold processFlags
      simp only [if_neg hBind, if_neg hUnion, if_neg hP9]
      rfl
  | case3 ns rest hShort | case5 ns rest hShort =>
      rcases rest with _ | ⟨new, _ | ⟨old, rest⟩⟩
      · simp [processFlags]
      · simp [processFlags]
      · exact (hShort new old rest rfl).elim
  | case7 ns rest hShort =>
      rcases rest with
        _ | ⟨new, _ | ⟨addr, _ | ⟨path, rest⟩⟩⟩
      · simp [processFlags]
      · simp [processFlags]
      · simp [processFlags]
      · exact (hShort new addr path rest rfl).elim

theorem delivers_done (held : List MountEntry) :
    Script.Delivers held .done [] :=
  rfl

/- A save delivers what it adds and what comes later. -/
theorem delivers_save
    {held adds later es : List MountEntry}
    {ns : Namespace}
    {next : Script}
    (hMounts : ns.mounts = held ++ adds)
    (hNext : Script.Delivers ns.mounts next later)
    (hEntries : es ⊆ adds ++ later) :
    Script.Delivers held (.save ns next) es := by
  refine ⟨adds, later, hMounts, hNext, ?_⟩
  intro e hMem
  exact List.mem_append.mp (hEntries hMem)

theorem delivers_last_save
    {held adds es : List MountEntry}
    {ns : Namespace}
    (hMounts : ns.mounts = held ++ adds)
    (hEntries : es ⊆ adds) :
    Script.Delivers held (.save ns .done) es := by
  apply delivers_save hMounts (delivers_done _)
  rw [List.append_nil]
  exact hEntries

theorem delivers_shell
    (ns : Namespace)
    (lines : List String) :
    Script.Delivers ns.mounts (shell ns lines)
      (shellEntries lines) := by
  induction lines generalizing ns with
  | nil =>
      exact delivers_done _
  | cons line lines ih =>
      unfold shell shellEntries
      by_cases hEnds : line = "" ∨ trim line = "exit"
      · rw [if_pos hEnds, if_pos hEnds]
        exact delivers_done _
      · rw [if_neg hEnds, if_neg hEnds]
        cases splitWhitespace (trim line) with
        | nil => exact ih ns
        | cons command args =>
            cases hBuiltin : builtins command with
            | none => simpa only [hBuiltin] using ih ns
            | some builtin =>
                simp only [hBuiltin]
                apply delivers_save
                · exact mounts_of_builtin hBuiltin args ns
                · exact ih _
                · exact List.Subset.refl _

theorem delivers_bindMain (args : List String) :
    Script.Delivers [] (bindMain args)
      (bindEntries args) := by
  unfold bindMain bindEntries
  split
  · intro loaded
    apply delivers_last_save
    · rfl
    · exact List.Subset.refl _
  · exact delivers_done _

theorem delivers_mountMain (args : List String) :
    Script.Delivers [] (mountMain args)
      (mountEntries args) := by
  unfold mountMain mountEntries
  split
  · intro loaded
    apply delivers_last_save
    · exact mounts_mountPaths _ _ _
    · exact List.Subset.refl _
  · exact delivers_done _

/- The mounts ensured first are additions as well. -/
theorem delivers_tenNsMain (args input : List String) :
    Script.Delivers [] (tenNsMain args input)
      (tenNsEntries args input) := by
  intro loaded
  have hEnsured :=
    (loaded.getD .new).mounts_ensureProcfs.trans
      (Namespace.mounts_ensureSrvfs _)
  rcases hEnsured with ⟨ensured, hMounts⟩
  unfold tenNsEntries
  cases args with
  | nil =>
      apply delivers_last_save
      · exact hMounts.symm
      · exact List.nil_subset _
  | cons name flags =>
      have hFlags := processFlags_append
        (loaded.getD .new).ensureProcfs.ensureSrvfs.mounts
        .new flags
      rw [Namespace.mounts_new, List.append_nil] at hFlags
      dsimp only
      rw [hFlags]
      cases processFlags .new flags with
      | none => exact delivers_done _
      | some result =>
          rcases result with ⟨ns, _ | ⟨command, rest⟩⟩
          · apply delivers_save
            · rw [← hMounts, List.append_assoc]
            · exact delivers_shell _ input
            · rw [List.append_assoc]
              exact List.subset_append_right _ _
          · apply delivers_last_save
            · rw [← hMounts, List.append_assoc]
            · exact List.subset_append_right _ _

/- Every helper delivers the entries it is asked to add. -/
theorem Helper.delivers (helper : Helper) :
    Script.Delivers [] helper.main helper.entries := by
  cases helper with
  | bind args => exact delivers_bindMain args
  | mount args => exact delivers_mountMain args
  | tenNs args input =>
      exact delivers_tenNsMain args input

end Planten
