import Planten.Namespace.Helpers

/-
  The flags of `10_ns`.

  The arguments are read by a loop over an index: each flag
  takes it past its operands.  The loop stops at the first
  argument that is no flag, and only then is the namespace
  saved and the rest of the arguments run; a flag without
  its operands ends the program before.

  Key definitions include:
    * `flagStep`
    * `flagLoop`
    * `tenNs`
    * `FlagGroup`

  Key theorems include:
    * `processFlags_of_flagStep`
    * `flagLoop_eq_processFlags`
    * `tenNsMain_eq`
    * `processFlags_groups`
    * `tenNs_allOrNothing`
-/

------------------------------------------------------------
-- The Loop
------------------------------------------------------------

namespace Planten

/- What one turn of the loop does. -/
inductive FlagStep where
| stop
| refuse (message : String)
| advance (ns : Namespace) (i : Nat)

def flagStep
    (args : List String)
    (ns : Namespace)
    (i : Nat) : FlagStep :=
  if hFlag : i < args.length then
    if args[i] = "-b" then
      if hOperands : i + 2 < args.length then
        .advance (ns.bind args[i + 1] args[i + 2]) (i + 3)
      else
        .refuse "-b requires two arguments"
    else if args[i] = "-u" then
      if hOperands : i + 2 < args.length then
        .advance (ns.union args[i + 1] args[i + 2]) (i + 3)
      else
        .refuse "-u requires two arguments"
    else if args[i] = "-p9" then
      if hOperands : i + 3 < args.length then
        .advance
          (ns.p9 args[i + 1] args[i + 2] args[i + 3])
          (i + 4)
      else
        .refuse ("-p9 requires three arguments: " ++
          "<new> <addr> <path>")
    else
      .stop
  else
    .stop

/- A turn that goes on comes closer to the end. -/
theorem lt_of_flagStep_advance
    {args : List String}
    {ns ns' : Namespace}
    {i i' : Nat}
    (hStep : flagStep args ns i = .advance ns' i') :
    i < i' ∧ i' ≤ args.length := by
  unfold flagStep at hStep
  split_ifs at hStep with hFlag hBind hOperands hUnion
    hOperands hP9 hOperands
  · cases hStep
    omega
  · cases hStep
    omega
  · cases hStep
    omega

/- The namespace and the index at which the loop stops. -/
def flagLoop
    (args : List String)
    (ns : Namespace)
    (i : Nat) : Except String (Namespace × Nat) :=
  match _hStep : flagStep args ns i with
  | .stop => .ok (ns, i)
  | .refuse message => .error message
  | .advance ns' i' => flagLoop args ns' i'
termination_by args.length - i
decreasing_by
  have hLess := lt_of_flagStep_advance _hStep
  omega

/-
  What `10_ns` does with its arguments: the namespace it
  saves, and the command it runs; without a command it is
  the shell.  The name of the program is the first argument,
  and without it the slice of the command panics.
-/
structure TenNsEffect where
  saved : Option Namespace
  command : Option (List String)
deriving DecidableEq, Repr

def tenNs
    (loaded : Namespace)
    (args : List String) : TenNsEffect :=
  match flagLoop args loaded.ensureProcfs.ensureSrvfs 1 with
  | .error _ => ⟨none, none⟩
  | .ok (ns, i) =>
      if i ≤ args.length then
        ⟨some ns, some (args.drop i)⟩
      else
        ⟨some ns, none⟩

end Planten

------------------------------------------------------------
-- Groups
------------------------------------------------------------

namespace Planten

/- A flag with all its operands. -/
inductive FlagGroup where
| bind (new old : String)
| union (new old : String)
| p9 (new addr path : String)
deriving DecidableEq, Repr

namespace FlagGroup

def args : FlagGroup → List String
| bind new old => ["-b", new, old]
| union new old => ["-u", new, old]
| p9 new addr path => ["-p9", new, addr, path]

def entry : FlagGroup → MountEntry
| bind new old => ⟨new, .bind old⟩
| union new old => ⟨new, .union [old]⟩
| p9 new addr path => ⟨new, .p9 addr path⟩

end FlagGroup

/- How many operands a flag has. -/
def operandCount (flag : String) : Option Nat :=
  if flag = "-b" ∨ flag = "-u" then
    some 2
  else if flag = "-p9" then
    some 3
  else
    none

/- The arguments do not go on with a flag. -/
def StartsCommand (rest : List String) : Prop :=
  ∀ flag ∈ rest.head?, operandCount flag = none

/- The arguments go on with a flag without its operands. -/
def LacksOperands (rest : List String) : Prop :=
  ∃ flag operands count,
    rest = flag :: operands ∧
      operandCount flag = some count ∧
        operands.length < count

/- The mounts that are there in every namespace. -/
def ensuredEntries (ns : Namespace) : List MountEntry :=
  (if ∃ entry ∈ ns.mounts,
      entry.target = PROCFS_TARGET then
    []
  else
    [⟨PROCFS_TARGET, .p9 PROCFS_ADDR ""⟩]) ++
  (if ∃ entry ∈ ns.mounts,
      entry.target = SRVFS_TARGET then
    []
  else
    [⟨SRVFS_TARGET, .p9 SRVFS_ADDR ""⟩])

end Planten

------------------------------------------------------------
-- Flags without an Index
------------------------------------------------------------

namespace Planten

/- A group adds its entry, and the flags go on behind it. -/
theorem processFlags_group
    (ns : Namespace)
    (group : FlagGroup)
    (rest : List String) :
    processFlags ns (group.args ++ rest) =
      processFlags ⟨ns.mounts ++ [group.entry]⟩ rest := by
  cases group <;> simp [processFlags, FlagGroup.args] <;> rfl

theorem processFlags_of_startsCommand
    {rest : List String}
    (hRest : StartsCommand rest)
    (ns : Namespace) :
    processFlags ns rest = some (ns, rest) := by
  cases rest with
  | nil =>
      rfl
  | cons flag rest =>
      have hNone := hRest flag rfl
      unfold operandCount at hNone
      split_ifs at hNone with hTwo hP9
      rw [not_or] at hTwo
      rw [processFlags.eq_def]
      simp only [if_neg hTwo.1, if_neg hTwo.2, if_neg hP9]

theorem processFlags_of_lacksOperands
    {rest : List String}
    (hRest : LacksOperands rest)
    (ns : Namespace) :
    processFlags ns rest = none := by
  rcases hRest with
    ⟨flag, operands, count, rfl, hCount, hShort⟩
  unfold operandCount at hCount
  split_ifs at hCount with hTwo hP9
  · cases hCount
    rcases operands with _ | ⟨new, _ | ⟨old, rest⟩⟩
    · rcases hTwo with rfl | rfl <;> simp [processFlags]
    · rcases hTwo with rfl | rfl <;> simp [processFlags]
    · simp only [List.length_cons] at hShort
      omega
  · cases hCount
    subst hP9
    rcases operands with
      _ | ⟨new, _ | ⟨addr, _ | ⟨path, rest⟩⟩⟩
    · simp [processFlags]
    · simp [processFlags]
    · simp [processFlags]
    · simp only [List.length_cons] at hShort
      omega

/- Arguments go on with a command, a group, or neither. -/
theorem arguments_cases (args : List String) :
    StartsCommand args ∨ LacksOperands args ∨
      ∃ group rest, args = FlagGroup.args group ++ rest := by
  rcases args with _ | ⟨flag, operands⟩
  · left
    intro flag hFlag
    cases hFlag
  · cases hCount : operandCount flag with
    | none =>
        left
        intro flag' hFlag'
        cases hFlag'
        exact hCount
    | some count =>
        right
        by_cases hShort : operands.length < count
        · exact Or.inl
            ⟨flag, operands, count, rfl, hCount, hShort⟩
        · right
          unfold operandCount at hCount
          split_ifs at hCount with hTwo hP9
          · cases hCount
            rcases operands with _ | ⟨new, _ | ⟨old, rest⟩⟩
            · exact absurd (by simp) hShort
            · exact absurd (by simp) hShort
            · rcases hTwo with rfl | rfl
              · exact ⟨.bind new old, rest, rfl⟩
              · exact ⟨.union new old, rest, rfl⟩
          · cases hCount
            subst hP9
            rcases operands with
              _ | ⟨new, _ | ⟨addr, _ | ⟨path, rest⟩⟩⟩
            · exact absurd (by simp) hShort
            · exact absurd (by simp) hShort
            · exact absurd (by simp) hShort
            · exact ⟨.p9 new addr path, rest, rfl⟩

end Planten

------------------------------------------------------------
-- The Loop and its Index
------------------------------------------------------------

namespace Planten

variable {args rest : List String} {i : Nat}

/- What stands behind an index is found there. -/
theorem getElem_of_drop
    {k : Nat}
    {arg : String}
    (hGet : (args.drop i)[k]? = some arg) :
    ∃ hLt : i + k < args.length, args[i + k] = arg := by
  rw [List.getElem?_drop] at hGet
  rcases List.getElem?_eq_some_iff.mp hGet with
    ⟨hLt, hArg⟩
  exact ⟨hLt, hArg⟩

theorem getElem_of_drop_zero
    {arg : String}
    (hGet : (args.drop i)[0]? = some arg) :
    ∃ hLt : i < args.length, args[i] = arg :=
  getElem_of_drop hGet

/- A turn at a group takes the index behind it. -/
theorem flagStep_of_group
    {group : FlagGroup}
    (hDrop : args.drop i = group.args ++ rest)
    (ns : Namespace) :
    flagStep args ns i =
      .advance ⟨ns.mounts ++ [group.entry]⟩
        (i + group.args.length) := by
  have hGet (k : Nat) :
      (args.drop i)[k]? = (group.args ++ rest)[k]? := by
    rw [hDrop]
  cases group with
  | bind new old =>
      rcases getElem_of_drop_zero (hGet 0) with
        ⟨hFlag, hBind⟩
      rcases getElem_of_drop (hGet 1) with ⟨_, hNew⟩
      rcases getElem_of_drop (hGet 2) with ⟨hLast, hOld⟩
      rw [flagStep, dif_pos hFlag, if_pos hBind,
        dif_pos hLast, hNew, hOld]
      rfl
  | union new old =>
      rcases getElem_of_drop_zero (hGet 0) with
        ⟨hFlag, hUnion⟩
      rcases getElem_of_drop (hGet 1) with ⟨_, hNew⟩
      rcases getElem_of_drop (hGet 2) with ⟨hLast, hOld⟩
      have hBind : args[i] ≠ "-b" :=
        ne_of_eq_of_ne hUnion (by decide)
      rw [flagStep, dif_pos hFlag, if_neg hBind,
        if_pos hUnion, dif_pos hLast, hNew, hOld]
      rfl
  | p9 new addr path =>
      rcases getElem_of_drop_zero (hGet 0) with
        ⟨hFlag, hP9⟩
      rcases getElem_of_drop (hGet 1) with ⟨_, hNew⟩
      rcases getElem_of_drop (hGet 2) with ⟨_, hAddr⟩
      rcases getElem_of_drop (hGet 3) with ⟨hLast, hPath⟩
      have hBind : args[i] ≠ "-b" :=
        ne_of_eq_of_ne hP9 (by decide)
      have hUnion : args[i] ≠ "-u" :=
        ne_of_eq_of_ne hP9 (by decide)
      rw [flagStep, dif_pos hFlag, if_neg hBind,
        if_neg hUnion, if_pos hP9, dif_pos hLast, hNew,
        hAddr, hPath]
      rfl

/- A turn at anything but a flag stops the loop. -/
theorem flagStep_of_startsCommand
    (hRest : StartsCommand (args.drop i))
    (ns : Namespace) :
    flagStep args ns i = .stop := by
  by_cases hFlag : i < args.length
  · have hNone : operandCount args[i] = none := by
      apply hRest
      rw [List.drop_eq_getElem_cons hFlag]
      rfl
    unfold operandCount at hNone
    split_ifs at hNone with hTwo hP9
    rw [not_or] at hTwo
    rw [flagStep, dif_pos hFlag, if_neg hTwo.1,
      if_neg hTwo.2, if_neg hP9]
  · rw [flagStep, dif_neg hFlag]

/- A turn at a flag without its operands ends the program. -/
theorem flagStep_of_lacksOperands
    (hRest : LacksOperands (args.drop i))
    (ns : Namespace) :
    ∃ message, flagStep args ns i = .refuse message := by
  rcases hRest with
    ⟨flag, operands, count, hDrop, hCount, hShort⟩
  have hGet : (args.drop i)[0]? = some flag := by
    rw [hDrop]
    rfl
  rcases getElem_of_drop_zero hGet with ⟨hFlag, hFlag'⟩
  have hLength := congrArg List.length hDrop
  rw [List.length_drop, List.length_cons] at hLength
  unfold operandCount at hCount
  split_ifs at hCount with hTwo hP9
  · cases hCount
    have hEnd : ¬ i + 2 < args.length := by omega
    rcases hTwo with rfl | rfl
    · refine ⟨"-b requires two arguments", ?_⟩
      rw [flagStep, dif_pos hFlag, if_pos hFlag',
        dif_neg hEnd]
    · have hBind : args[i] ≠ "-b" :=
        ne_of_eq_of_ne hFlag' (by decide)
      refine ⟨"-u requires two arguments", ?_⟩
      rw [flagStep, dif_pos hFlag, if_neg hBind,
        if_pos hFlag', dif_neg hEnd]
  · cases hCount
    subst hP9
    have hEnd : ¬ i + 3 < args.length := by omega
    have hBind : args[i] ≠ "-b" :=
      ne_of_eq_of_ne hFlag' (by decide)
    have hUnion : args[i] ≠ "-u" :=
      ne_of_eq_of_ne hFlag' (by decide)
    refine ⟨"-p9 requires three arguments: " ++
      "<new> <addr> <path>", ?_⟩
    rw [flagStep, dif_pos hFlag, if_neg hBind,
      if_neg hUnion, if_pos hFlag', dif_neg hEnd]

end Planten

------------------------------------------------------------
-- What the Loop Does
------------------------------------------------------------

namespace Planten

variable {args rest : List String} {i : Nat}

theorem flagLoop_of_stop
    {ns : Namespace}
    (hStep : flagStep args ns i = .stop) :
    flagLoop args ns i = .ok (ns, i) := by
  rw [flagLoop]
  split
  · rfl
  · rename_i hOther
    cases hStep.symm.trans hOther
  · rename_i hOther
    cases hStep.symm.trans hOther

theorem flagLoop_of_refuse
    {ns : Namespace}
    {message : String}
    (hStep : flagStep args ns i = .refuse message) :
    flagLoop args ns i = .error message := by
  rw [flagLoop]
  split
  · rename_i hOther
    cases hStep.symm.trans hOther
  · rename_i hOther
    cases hStep.symm.trans hOther
    rfl
  · rename_i hOther
    cases hStep.symm.trans hOther

theorem flagLoop_of_advance
    {ns ns' : Namespace}
    {i' : Nat}
    (hStep : flagStep args ns i = .advance ns' i') :
    flagLoop args ns i = flagLoop args ns' i' := by
  rw [flagLoop]
  split
  · rename_i hOther
    cases hStep.symm.trans hOther
  · rename_i hOther
    cases hStep.symm.trans hOther
  · rename_i hOther
    cases hStep.symm.trans hOther
    rfl

/- A turn reads the flag that the recursion is at. -/
theorem processFlags_of_flagStep
    (args : List String)
    (ns : Namespace)
    (i : Nat) :
    processFlags ns (args.drop i) =
      match flagStep args ns i with
      | .stop => some (ns, args.drop i)
      | .refuse _ => none
      | .advance ns' i' =>
          processFlags ns' (args.drop i') := by
  rcases arguments_cases (args.drop i) with
    hCommand | hLacks | ⟨group, rest, hDrop⟩
  · rw [processFlags_of_startsCommand hCommand,
      flagStep_of_startsCommand hCommand]
  · rcases flagStep_of_lacksOperands hLacks ns with
      ⟨message, hRefuse⟩
    rw [processFlags_of_lacksOperands hLacks, hRefuse]
  · have hRest :
        args.drop (i + group.args.length) = rest := by
      rw [← List.drop_drop, hDrop, List.drop_left]
    rw [flagStep_of_group hDrop ns, hDrop,
      processFlags_group]
    dsimp only
    rw [hRest]

/- The loop is the recursion over the arguments it is at. -/
theorem flagLoop_eq_processFlags
    (args : List String)
    (ns : Namespace)
    (i : Nat) :
    (flagLoop args ns i).toOption.map
        (fun result => (result.1, args.drop result.2)) =
      processFlags ns (args.drop i) := by
  induction ns, i using flagLoop.induct args with
  | case1 ns i hStop =>
      rw [flagLoop_of_stop hStop, processFlags_of_flagStep,
        hStop]
      rfl
  | case2 ns i message hRefuse =>
      rw [flagLoop_of_refuse hRefuse,
        processFlags_of_flagStep, hRefuse]
      rfl
  | case3 ns i ns' i' hAdvance ih =>
      rw [flagLoop_of_advance hAdvance,
        processFlags_of_flagStep, hAdvance]
      exact ih

/- The index does not run past the end. -/
theorem le_of_flagLoop
    {ns ns' : Namespace}
    {i' : Nat}
    (hInside : i ≤ args.length)
    (hLoop : flagLoop args ns i = .ok (ns', i')) :
    i' ≤ args.length := by
  induction ns, i using flagLoop.induct args with
  | case1 ns i hStop =>
      rw [flagLoop_of_stop hStop] at hLoop
      cases hLoop
      exact hInside
  | case2 ns i message hRefuse =>
      rw [flagLoop_of_refuse hRefuse] at hLoop
      cases hLoop
  | case3 ns i ns'' i'' hAdvance ih =>
      rw [flagLoop_of_advance hAdvance] at hLoop
      exact ih (lt_of_flagStep_advance hAdvance).2 hLoop

end Planten

------------------------------------------------------------
-- All or Nothing
------------------------------------------------------------

namespace Planten

/- The namespace and the command, by the recursion. -/
theorem tenNs_eq
    (loaded : Namespace)
    (program : String)
    (flags : List String) :
    tenNs loaded (program :: flags) =
      match processFlags
          loaded.ensureProcfs.ensureSrvfs flags with
      | none => ⟨none, none⟩
      | some (ns, rest) => ⟨some ns, some rest⟩ := by
  have hLoop := flagLoop_eq_processFlags (program :: flags)
    loaded.ensureProcfs.ensureSrvfs 1
  rw [List.drop_one, List.tail_cons] at hLoop
  rw [tenNs, ← hLoop]
  cases hResult : flagLoop (program :: flags)
      loaded.ensureProcfs.ensureSrvfs 1 with
  | error message =>
      rfl
  | ok result =>
      rcases result with ⟨ns, i⟩
      have hInside : i ≤ (program :: flags).length :=
        le_of_flagLoop (Nat.succ_le_succ (Nat.zero_le _))
          hResult
      dsimp only
      rw [if_pos hInside]
      rfl

/- The helper does what the program does. -/
theorem tenNsMain_eq (args input : List String) :
    tenNsMain args input =
      .load (fun loaded =>
        match tenNs (loaded.getD Namespace.new) args with
        | ⟨none, _⟩ => .done
        | ⟨some ns, some []⟩ => .save ns (shell ns input)
        | ⟨some ns, _⟩ => .save ns .done) := by
  unfold tenNsMain
  congr 1
  funext loaded
  cases args with
  | nil =>
      have hStop :
          flagStep []
            (loaded.getD
              Namespace.new).ensureProcfs.ensureSrvfs 1 =
            .stop := rfl
      rw [tenNs, flagLoop_of_stop hStop]
      rfl
  | cons program flags =>
      rw [tenNs_eq]
      dsimp only
      rcases processFlags (loaded.getD
          Namespace.new).ensureProcfs.ensureSrvfs flags with
        _ | ⟨ns, _ | ⟨command, operands⟩⟩ <;> rfl

theorem mounts_ensured (ns : Namespace) :
    ns.ensureProcfs.ensureSrvfs.mounts =
      ns.mounts ++ ensuredEntries ns := by
  have hTargets : PROCFS_TARGET ≠ SRVFS_TARGET := by
    decide
  have hAny (target : String) :
      ns.mounts.any (fun entry => entry.target = target) =
        decide (∃ entry ∈ ns.mounts,
          entry.target = target) := by
    rw [List.any_eq]
    simp
  unfold ensuredEntries Namespace.ensureSrvfs
    Namespace.ensureProcfs
  by_cases hProc :
      ∃ entry ∈ ns.mounts, entry.target = PROCFS_TARGET
  · by_cases hSrv :
        ∃ entry ∈ ns.mounts, entry.target = SRVFS_TARGET
    · simp [hAny, hProc, hSrv]
    · simp [hAny, hProc, hSrv, Namespace.addMountEntry]
  · by_cases hSrv :
        ∃ entry ∈ ns.mounts, entry.target = SRVFS_TARGET
    · simp [hAny, hProc, hSrv, Namespace.addMountEntry]
    · simp [hAny, hProc, hSrv, Namespace.addMountEntry,
        hTargets]

/- Groups of flags add their entries, one after the other. -/
theorem processFlags_groups
    (ns : Namespace)
    (groups : List FlagGroup)
    (rest : List String) :
    processFlags ns
        (groups.flatMap FlagGroup.args ++ rest) =
      processFlags
        ⟨ns.mounts ++ groups.map FlagGroup.entry⟩ rest := by
  induction groups generalizing ns with
  | nil =>
      simp
  | cons group groups ih =>
      rw [List.flatMap_cons, List.append_assoc,
        processFlags_group, ih]
      simp

/- Arguments are groups, then a command or a lone flag. -/
theorem exists_groups (args : List String) :
    ∃ (groups : List FlagGroup) (rest : List String),
      args = groups.flatMap FlagGroup.args ++ rest ∧
        (StartsCommand rest ∨ LacksOperands rest) := by
  rcases arguments_cases args with
    hCommand | hLacks | ⟨group, rest, hArgs⟩
  · exact ⟨[], args, rfl, Or.inl hCommand⟩
  · exact ⟨[], args, rfl, Or.inr hLacks⟩
  · have hShorter : rest.length < args.length := by
      rw [hArgs, List.length_append]
      cases group <;> simp [FlagGroup.args]
    rcases exists_groups rest with
      ⟨groups, rest', hRest, hEnd⟩
    refine ⟨group :: groups, rest', ?_, hEnd⟩
    rw [hArgs, hRest, List.flatMap_cons, List.append_assoc]
termination_by args.length

/-
  Every list of arguments is one of groups and a command, or
  of groups and a flag without its operands.  In the one
  case all groups are saved and the command is run; in the
  other nothing is saved or run.
-/
theorem tenNs_allOrNothing
    (loaded : Namespace)
    (program : String) :
    (∀ flags,
      ∃ (groups : List FlagGroup) (rest : List String),
      flags = groups.flatMap FlagGroup.args ++ rest ∧
        (StartsCommand rest ∨ LacksOperands rest)) ∧
    ∀ (groups : List FlagGroup) (rest : List String),
      (StartsCommand rest →
        tenNs loaded (program ::
            (groups.flatMap FlagGroup.args ++ rest)) =
          ⟨some ⟨loaded.mounts ++ ensuredEntries loaded ++
              groups.map FlagGroup.entry⟩,
            some rest⟩) ∧
      (LacksOperands rest →
        tenNs loaded (program ::
            (groups.flatMap FlagGroup.args ++ rest)) =
          ⟨none, none⟩) := by
  refine ⟨exists_groups, ?_⟩
  intro groups rest
  rw [tenNs_eq, processFlags_groups, mounts_ensured]
  constructor
  · intro hCommand
    rw [processFlags_of_startsCommand hCommand]
  · intro hLacks
    rw [processFlags_of_lacksOperands hLacks]

end Planten
