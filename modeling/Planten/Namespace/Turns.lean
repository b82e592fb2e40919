import Planten.Namespace.Children
import Planten.Namespace.Flags
import Planten.Namespace.Sharing

/-
  Helpers that take turns, and the child at the end.

  When every helper is done before the next one starts, the
  stored namespace is what was stored before, followed by
  what each of them was asked to add, in order; `10_ns` also
  adds the two mounts it ensures, where they are missing.
  The child of a last `10_ns` then does what the plan of all
  these entries prescribes, and nothing else.

  Key definitions include:
    * `Script.finish`
    * `System.inTurns`
    * `Helper.adds`
    * `tenNsChild`

  Key theorems include:
    * `System.file_of_turns`
    * `entriesOf_finish_main`
    * `System.contents_inTurns`
    * `mounts_what_was_asked`
-/

------------------------------------------------------------
-- Helpers in Turns
------------------------------------------------------------

namespace Planten

/- The file after all the accesses of a script. -/
def Script.finish
    (serde : Serde) :
    Option Bytes → Script → Option Bytes
| file, .done => file
| file, .load next =>
    Script.finish serde file
      (next (Namespace.loadFromFile serde file))
| _, .save ns next =>
    Script.finish serde (some (ns.saveToFile serde)) next

/- Each of the first processes takes all of its turns. -/
def System.inTurns
    (turns : Nat → Nat)
    (k : Nat) : List Nat :=
  (List.range k).flatMap (fun i => List.replicate (turns i) i)

/- The entries of a file. -/
def entriesOf
    (serde : Serde)
    (file : Option Bytes) : List MountEntry :=
  (Namespace.loadOrNew serde file).mounts

/-
  What a helper adds to the entries that are there.  A
  `10_ns` that refuses its flags saves nothing.
-/
def Helper.adds
    (mounts : List MountEntry) :
    Helper → List MountEntry
| .tenNs args input =>
    if (processFlags Namespace.new args.tail).isNone then
      []
    else
      ensuredEntries ⟨mounts⟩ ++ tenNsEntries args input
| helper => helper.entries

/- The entries after some helpers, one after the other. -/
def addAll
    (mounts : List MountEntry)
    (helpers : List Helper) : List MountEntry :=
  helpers.foldl
    (fun mounts helper => mounts ++ helper.adds mounts) mounts

/-
  The child that `10_ns` forks to run a command, with what it
  has saved.
-/
def tenNsChild
    (serde : Serde)
    (file : Option Bytes)
    (args : List String) : Option (ChildM Unit) :=
  match tenNs (Namespace.loadOrNew serde file) args with
  | ⟨some ns, some (command :: rest)⟩ =>
      some (child ns (command :: rest))
  | _ => none

end Planten

------------------------------------------------------------
-- Turns
------------------------------------------------------------

namespace Planten

namespace System

variable {serde : Serde}

/- A process that takes its turns leaves the others alone. -/
theorem processes_of_turns
    {i j : Nat}
    (hNe : j ≠ i)
    (n : Nat)
    (sys : System Nat) :
    (Run.final (step serde) sys
      (List.replicate n i)).processes j =
        sys.processes j := by
  induction n generalizing sys with
  | zero =>
      rfl
  | succ n ih =>
      rw [List.replicate_succ, Run.final_cons, ih]
      unfold step
      split
      · rfl
      · exact Function.update_of_ne hNe _ _
      · exact Function.update_of_ne hNe _ _

/- A process that is done has finished its script. -/
theorem file_of_turns
    (i n : Nat)
    (sys : System Nat)
    (hDone :
      (Run.final (step serde) sys
        (List.replicate n i)).Finished i) :
    (Run.final (step serde) sys
      (List.replicate n i)).file =
        (sys.processes i).script.finish serde sys.file := by
  induction n generalizing sys with
  | zero =>
      have hScript : (sys.processes i).script = .done := hDone
      rw [hScript]
      rfl
  | succ n ih =>
      rw [List.replicate_succ, Run.final_cons] at hDone ⊢
      rw [ih _ hDone]
      unfold step
      cases hScript : (sys.processes i).script with
      | done =>
          simp only [hScript]
      | load next | save ns next =>
          simp only [Function.update_self, Script.finish]

/- The turns of one more process come last. -/
theorem inTurns_succ
    (turns : Nat → Nat)
    (k : Nat) :
    inTurns turns (k + 1) =
      inTurns turns k ++ List.replicate (turns k) k := by
  simp [inTurns, List.range_succ]

/- A process without a turn so far has its whole script. -/
theorem processes_inTurns
    (helpers : Nat → Helper)
    (file : Option Bytes)
    (turns : Nat → Nat)
    {k j : Nat}
    (hLater : k ≤ j) :
    (Run.final (step serde) (start helpers file)
      (inTurns turns k)).processes j =
        ⟨[], (helpers j).main⟩ := by
  induction k with
  | zero =>
      rfl
  | succ k ih =>
      rw [inTurns_succ, Run.final_append,
        processes_of_turns (by omega), ih (by omega)]

end System

end Planten

------------------------------------------------------------
-- What a Helper Leaves
------------------------------------------------------------

namespace Planten

variable {serde : Serde} (hReads : serde.Reads)

include hReads

theorem entriesOf_saved (ns : Namespace) :
    entriesOf serde (some (ns.saveToFile serde)) =
      ns.mounts := by
  rw [entriesOf, Namespace.loadOrNew_saveToFile hReads]

/- A shell leaves its copy and what it is typed to add. -/
theorem entriesOf_finish_shell
    (ns : Namespace)
    (lines : List String)
    {file : Option Bytes}
    (hFile : entriesOf serde file = ns.mounts) :
    entriesOf serde ((shell ns lines).finish serde file) =
      ns.mounts ++ shellEntries lines := by
  induction lines generalizing ns file with
  | nil =>
      rw [shell, Script.finish, hFile, shellEntries,
        List.append_nil]
  | cons line lines ih =>
      unfold shell shellEntries
      by_cases hEnds : line = "" ∨ trim line = "exit"
      · rw [if_pos hEnds, if_pos hEnds, Script.finish, hFile,
          List.append_nil]
      · rw [if_neg hEnds, if_neg hEnds]
        cases splitWhitespace (trim line) with
        | nil =>
            exact ih ns hFile
        | cons command args =>
            cases hBuiltin : builtins command with
            | none =>
                simpa only [hBuiltin] using ih ns hFile
            | some builtin =>
                simp only [hBuiltin, Script.finish]
                rw [ih _ (entriesOf_saved hReads _),
                  mounts_of_builtin hBuiltin args ns,
                  List.append_assoc]

theorem entriesOf_finish_bindMain
    (args : List String)
    (file : Option Bytes) :
    entriesOf serde ((bindMain args).finish serde file) =
      entriesOf serde file ++ bindEntries args := by
  unfold bindMain bindEntries
  split
  · simp only [Script.finish]
    exact entriesOf_saved hReads _
  · exact (List.append_nil _).symm

theorem entriesOf_finish_mountMain
    (args : List String)
    (file : Option Bytes) :
    entriesOf serde ((mountMain args).finish serde file) =
      entriesOf serde file ++ mountEntries args := by
  unfold mountMain mountEntries
  split
  · simp only [Script.finish]
    rw [entriesOf_saved hReads, mounts_mountPaths]
    rfl
  · exact (List.append_nil _).symm

omit hReads in
/- The flags of `10_ns` add to what is ensured. -/
theorem processFlags_ensured
    (ns : Namespace)
    (flags : List String) :
    processFlags ns.ensureProcfs.ensureSrvfs flags =
      (processFlags Namespace.new flags).map (fun result =>
        (⟨ns.mounts ++ ensuredEntries ns ++
          result.1.mounts⟩, result.2)) := by
  rw [← mounts_ensured, ← processFlags_append,
    Namespace.mounts_new, List.append_nil]

omit hReads in
theorem adds_tenNs_cons
    (name : String)
    (flags input : List String)
    (mounts : List MountEntry) :
    (Helper.tenNs (name :: flags) input).adds mounts =
      if (processFlags Namespace.new flags).isNone then
        []
      else
        ensuredEntries ⟨mounts⟩ ++
          tenNsEntries (name :: flags) input := rfl

theorem entriesOf_finish_tenNsMain
    (args input : List String)
    (file : Option Bytes) :
    entriesOf serde
        ((tenNsMain args input).finish serde file) =
      entriesOf serde file ++
        (Helper.tenNs args input).adds
          (entriesOf serde file) := by
  have hLoaded :
      (Namespace.loadFromFile serde file).getD
          Namespace.new =
        Namespace.loadOrNew serde file := rfl
  simp only [tenNsMain, Script.finish, hLoaded]
  cases args with
  | nil =>
      simp only [Script.finish]
      rw [entriesOf_saved hReads, mounts_ensured]
      simp [entriesOf, Helper.adds, processFlags,
        tenNsEntries]
  | cons name flags =>
      rw [adds_tenNs_cons]
      simp only [tenNsEntries]
      rw [processFlags_ensured]
      cases processFlags Namespace.new flags with
      | none =>
          exact (List.append_nil _).symm
      | some result =>
          rcases result with ⟨ns, _ | ⟨command, rest⟩⟩
          · simp only [Option.map_some, Script.finish]
            rw [entriesOf_finish_shell hReads _ _
              (entriesOf_saved hReads _)]
            simp [entriesOf]
          · simp only [Option.map_some, Script.finish]
            rw [entriesOf_saved hReads]
            simp [entriesOf]

/- A helper leaves what it found and what it adds. -/
theorem entriesOf_finish_main
    (helper : Helper)
    (file : Option Bytes) :
    entriesOf serde (helper.main.finish serde file) =
      entriesOf serde file ++
        helper.adds (entriesOf serde file) := by
  cases helper with
  | bind args =>
      exact entriesOf_finish_bindMain hReads args file
  | mount args =>
      exact entriesOf_finish_mountMain hReads args file
  | tenNs args input =>
      exact entriesOf_finish_tenNsMain hReads args input file

end Planten

------------------------------------------------------------
-- The Child at the End
------------------------------------------------------------

namespace Planten

theorem addAll_concat
    (mounts : List MountEntry)
    (helpers : List Helper)
    (helper : Helper) :
    addAll mounts (helpers ++ [helper]) =
      addAll mounts helpers ++
        helper.adds (addAll mounts helpers) := by
  unfold addAll
  rw [List.foldl_append]
  rfl

/- After helpers in turns, the file has what they added. -/
theorem System.contents_inTurns
    {serde : Serde}
    (hReads : serde.Reads)
    (helpers : Nat → Helper)
    (file : Option Bytes)
    (turns : Nat → Nat)
    (k : Nat)
    (hDone :
      ∀ i < k,
        (Run.final (step serde) (start helpers file)
          (inTurns turns k)).Finished i) :
    entriesOf serde
        (Run.final (step serde) (start helpers file)
          (inTurns turns k)).file =
      addAll (entriesOf serde file)
        ((List.range k).map helpers) := by
  induction k with
  | zero =>
      rfl
  | succ k ih =>
      rw [inTurns_succ, Run.final_append] at hDone ⊢
      have hBefore :
          ∀ i < k,
            (Run.final (step serde) (start helpers file)
              (inTurns turns k)).Finished i := by
        intro i hLess
        have hStill := hDone i (by omega)
        rw [Finished, processes_of_turns (by omega)] at hStill
        exact hStill
      rw [file_of_turns _ _ _ (hDone k (by omega)),
        processes_inTurns helpers file turns (le_refl k),
        entriesOf_finish_main hReads, ih hBefore,
        List.range_succ, List.map_append, List.map_singleton,
        addAll_concat]

/- What is left of the arguments is behind whole groups. -/
theorem groups_of_processFlags
    {ns ns' : Namespace}
    {args rest : List String}
    (hFlags : processFlags ns args = some (ns', rest)) :
    ∃ groups : List FlagGroup,
      args = groups.flatMap FlagGroup.args ++ rest ∧
        StartsCommand rest := by
  rcases exists_groups args with
    ⟨groups, rest', rfl, hCommand | hLacks⟩
  · rw [processFlags_groups,
      processFlags_of_startsCommand hCommand] at hFlags
    cases hFlags
    exact ⟨groups, rfl, hCommand⟩
  · rw [processFlags_groups,
      processFlags_of_lacksOperands hLacks] at hFlags
    cases hFlags

/- The child is one of the entries that its tool leaves. -/
theorem eq_child_of_tenNsChild
    {serde : Serde}
    {file : Option Bytes}
    {args : List String}
    {program : ChildM Unit}
    (hChild : tenNsChild serde file args = some program) :
    ∃ (name : String) (groups : List FlagGroup)
        (command : String) (rest : List String),
      args =
          name ::
            (groups.flatMap FlagGroup.args ++
              command :: rest) ∧
        StartsCommand (command :: rest) ∧
        program =
          child
            ⟨entriesOf serde file ++
              (Helper.tenNs args []).adds
                (entriesOf serde file)⟩
            (command :: rest) := by
  rcases args with _ | ⟨name, flags⟩
  · have hStop :
        flagStep []
          (Namespace.loadOrNew serde
            file).ensureProcfs.ensureSrvfs 1 = .stop := rfl
    rw [tenNsChild, tenNs, flagLoop_of_stop hStop] at hChild
    cases hChild
  · rw [tenNsChild, tenNs_eq, processFlags_ensured] at hChild
    rw [adds_tenNs_cons]
    simp only [tenNsEntries]
    cases hFlags : processFlags Namespace.new flags with
    | none =>
        rw [hFlags] at hChild
        cases hChild
    | some result =>
        rcases result with ⟨ns, _ | ⟨command, rest⟩⟩
        · rw [hFlags] at hChild
          cases hChild
        · rw [hFlags] at hChild
          rcases groups_of_processFlags hFlags with
            ⟨groups, rfl, hCommand⟩
          refine ⟨name, groups, command, rest, rfl, hCommand,
            ?_⟩
          cases hChild
          simp [entriesOf]

/-
  When helpers are done one after the other, and a `10_ns`
  then runs a command, its child does to the host just what
  the plan prescribes of the entries that were stored at
  first, followed by what each tool was asked to add.  The
  plan has all of their mounts, in order, and the command is
  what stands behind the groups of flags.
-/
theorem mounts_what_was_asked
    {serde : Serde}
    (hReads : serde.Reads)
    (helpers : Nat → Helper)
    (file : Option Bytes)
    (turns : Nat → Nat)
    (k : Nat)
    (hDone :
      ∀ i < k,
        (Run.final (System.step serde)
          (System.start helpers file)
          (System.inTurns turns k)).Finished i)
    (args : List String)
    {program : ChildM Unit}
    (hChild :
      tenNsChild serde
          (Run.final (System.step serde)
            (System.start helpers file)
            (System.inTurns turns k)).file args =
        some program) :
    ∃ (name : String) (groups : List FlagGroup)
        (command : String) (rest : List String)
        (asked : List MountEntry),
      args =
          name ::
            (groups.flatMap FlagGroup.args ++
              command :: rest) ∧
        StartsCommand (command :: rest) ∧
        asked =
          addAll (entriesOf serde file)
            ((List.range k).map helpers ++
              [.tenNs args []]) ∧
        (Namespace.mk asked).mountPlan.flatMap
            Planned.items =
          asked.flatMap MountEntry.items ∧
        ∀ t,
          (∃ host, (Asking.run host [] program).2 = t) ↔
            ChildTrace (Namespace.mk asked).mountPlan
              (command :: rest) t := by
  have hFile :=
    System.contents_inTurns hReads helpers file turns k hDone
  rcases eq_child_of_tenNsChild hChild with
    ⟨name, groups, command, rest, hArgs, hCommand, rfl⟩
  rw [hFile, ← addAll_concat]
  have : Inhabited HostAnswer := ⟨.error ""⟩
  exact ⟨name, groups, command, rest, _, hArgs, hCommand, rfl,
    Namespace.items_mountPlan _, fun t =>
      Asking.exists_trace_iff.trans leaves_child_iff⟩

/- A bind and a union, then a share in front of a command. -/
def threeTools : Nat → Helper
| 0 => .bind ["bind", "/a", "/x"]
| _ => .mount ["mount", "/b", "/y", "/z"]

theorem mounts_what_was_asked_of_threeTools :
    ∃ program,
      tenNsChild serdeJson
          (Run.final (System.step serdeJson)
            (System.start threeTools none)
            (System.inTurns (fun _ => 2) 2)).file
          ["10_ns", "-p9", "/c", "host", "/", "sh"] =
        some program ∧
      ∃ (name : String) (groups : List FlagGroup)
          (command : String) (rest : List String)
          (asked : List MountEntry),
        ["10_ns", "-p9", "/c", "host", "/", "sh"] =
            name ::
              (groups.flatMap FlagGroup.args ++
                command :: rest) ∧
          StartsCommand (command :: rest) ∧
          asked =
            addAll (entriesOf serdeJson none)
              ((List.range 2).map threeTools ++
                [.tenNs ["10_ns", "-p9", "/c", "host", "/",
                  "sh"] []]) ∧
          (Namespace.mk asked).mountPlan.flatMap
              Planned.items =
            asked.flatMap MountEntry.items ∧
          ∀ t,
            (∃ host,
              (Asking.run host [] program).2 = t) ↔
              ChildTrace (Namespace.mk asked).mountPlan
                (command :: rest) t := by
  have hDone :
      ∀ i < 2,
        (Run.final (System.step serdeJson)
          (System.start threeTools none)
          (System.inTurns (fun _ => 2) 2)).Finished i := by
    intro i hLess
    rcases i with _ | _ | i
    · rfl
    · rfl
    · omega
  have hChild (file : Option Bytes) :
      ∃ program,
        tenNsChild serdeJson file
            ["10_ns", "-p9", "/c", "host", "/", "sh"] =
          some program := by
    rw [tenNsChild, tenNs_eq]
    exact ⟨_, rfl⟩
  rcases hChild _ with ⟨program, hProgram⟩
  exact ⟨program, hProgram,
    mounts_what_was_asked reads_serdeJson threeTools none
      (fun _ => 2) 2 hDone _ hProgram⟩

end Planten
