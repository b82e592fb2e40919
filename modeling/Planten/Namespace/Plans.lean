import Planten.Library.Merging
import Planten.Namespace.Mounts

/-
  The mount plan of a namespace.

  The plan has the entries of the namespace in order, with
  neighbouring unions of one target made one.  What is
  mounted, and in which order, stays the same; a union is
  not merged over anything that stands between; and planning
  a second time changes nothing.

  Key definitions include:
    * `MountPlan`
    * `Namespace.mountPlan`
    * `NamespaceCall`
    * `CanonicalPlan`

  Key theorems include:
    * `Namespace.mountPlan_eq_merge`
    * `Namespace.mountPlan_rebuild`
    * `Namespace.canonicalPlan`
-/

------------------------------------------------------------
-- Plans
------------------------------------------------------------

namespace Planten

inductive MountPlan where
| bind (path : String)
| union (paths : List String)
| p9 (addr path : String)
deriving DecidableEq, Repr

/- A target, and what is planned for it. -/
abbrev Planned : Type :=
  String × MountPlan

namespace Namespace

/- A union extends the last plan, if it is of its target. -/
def addToPlan
    (plan : List Planned)
    (entry : MountEntry) : List Planned :=
  match entry.mount with
  | .bind path => plan ++ [(entry.target, .bind path)]
  | .p9 addr path => plan ++ [(entry.target, .p9 addr path)]
  | .union paths =>
      match plan.getLast? with
      | some (target, .union existing) =>
          if target = entry.target then
            plan.dropLast ++
              [(target, .union (existing ++ paths))]
          else
            plan ++ [(entry.target, .union paths)]
      | _ => plan ++ [(entry.target, .union paths)]

def mountPlan (ns : Namespace) : List Planned :=
  ns.mounts.foldl addToPlan []

end Namespace

end Planten

------------------------------------------------------------
-- Calls
------------------------------------------------------------

namespace Planten

/- The calls that add an entry. -/
inductive NamespaceCall where
| bind (new old : String)
| union (new old : String)
| unionMulti (new : String) (oldPaths : List String)
| p9 (new addr path : String)
deriving DecidableEq, Repr

namespace Namespace

def call
    (ns : Namespace) :
    NamespaceCall → Namespace
| .bind new old => ns.bind new old
| .union new old => ns.union new old
| .unionMulti new oldPaths => ns.unionMulti new oldPaths
| .p9 new addr path => ns.p9 new addr path

/- The namespace that a sequence of calls leaves. -/
def ofCalls (calls : List NamespaceCall) : Namespace :=
  calls.foldl call new

end Namespace

/- The call that adds what is planned. -/
def Planned.toCall : Planned → NamespaceCall
| (target, .bind path) => .bind target path
| (target, .union paths) => .unionMulti target paths
| (target, .p9 addr path) => .p9 target addr path

/- A namespace made from a plan. -/
def Namespace.rebuild (plan : List Planned) : Namespace :=
  ofCalls (plan.map Planned.toCall)

end Planten

------------------------------------------------------------
-- Canonical Plans
------------------------------------------------------------

namespace Planten

/- The single mounts that entries and plans stand for. -/
inductive MountItem where
| bind (target path : String)
| member (target path : String)
| p9 (target addr path : String)
deriving DecidableEq, Repr

def Planned.items : Planned → List MountItem
| (target, .bind path) => [.bind target path]
| (target, .union paths) => paths.map (.member target)
| (target, .p9 addr path) => [.p9 target addr path]

/- The plan of an entry by itself. -/
def MountEntry.planned (entry : MountEntry) : Planned :=
  (entry.target,
    match entry.mount with
    | .bind path => .bind path
    | .union paths => .union paths
    | .p9 addr path => .p9 addr path)

/- One item for each path of a union. -/
def MountEntry.items (entry : MountEntry) : List MountItem :=
  match entry.mount with
  | .bind path => [.bind entry.target path]
  | .union paths => paths.map (.member entry.target)
  | .p9 addr path => [.p9 entry.target addr path]

def MountPlan.IsUnion : MountPlan → Prop
| .union _ => True
| _ => False

instance (plan : MountPlan) : Decidable plan.IsUnion := by
  cases plan <;> unfold MountPlan.IsUnion <;> infer_instance

/- The paths that an entry has in its union. -/
def MountEntry.unionPaths
    (entry : MountEntry) : List String :=
  match entry.mount with
  | .union paths => paths
  | _ => []

/-
  A plan is made from neighbouring entries: from one, or
  from unions of one target, with their paths in order.
-/
inductive PlannedFrom : List MountEntry → Planned → Prop where
| entry (entry : MountEntry) :
    PlannedFrom [entry] entry.planned
| unions
    {entries : List MountEntry}
    {target : String}
    (hEntries : entries ≠ [])
    (hUnions :
      ∀ entry ∈ entries,
        entry.target = target ∧ entry.planned.2.IsUnion) :
    PlannedFrom entries
      (target,
        .union (entries.flatMap MountEntry.unionPaths))

/- What makes a plan the canonical one of the entries. -/
structure CanonicalPlan
    (mounts : List MountEntry)
    (plan : List Planned) : Prop where
  items :
    plan.flatMap Planned.items =
      mounts.flatMap MountEntry.items
  others :
    plan.filter (fun planned => ¬ planned.2.IsUnion) =
      (mounts.map MountEntry.planned).filter
        (fun planned => ¬ planned.2.IsUnion)
  separated :
    plan.IsChain (fun before after =>
      before.2.IsUnion → after.2.IsUnion →
        before.1 ≠ after.1)
  blocks :
    ∃ entries,
      entries.flatten = mounts ∧
        List.Forall₂ PlannedFrom entries plan
  again :
    (Namespace.rebuild plan).mountPlan = plan

/- At most the last plan is another, or one more is there. -/
def ChangesLast (plan plan' : List Planned) : Prop :=
  (∃ planned, plan' = plan ++ [planned]) ∨
    ∃ front planned planned',
      plan = front ++ [planned] ∧
        plan' = front ++ [planned']

end Planten

------------------------------------------------------------
-- Plans as Merged Lists
------------------------------------------------------------

namespace Planten

/- Two unions of one target make one. -/
def joinUnions : Planned → Planned → Option Planned
| (target, .union existing), (target', .union paths) =>
    if target = target' then
      some (target, .union (existing ++ paths))
    else
      none
| _, _ => none

/- Two plans are joined just if they are such unions. -/
theorem joinUnions_eq_some
    {a b c : Planned} :
    joinUnions a b = some c ↔
      ∃ target existing paths,
        a = (target, .union existing) ∧
          b = (target, .union paths) ∧
            c = (target, .union (existing ++ paths)) := by
  constructor
  · intro hJoin
    unfold joinUnions at hJoin
    split at hJoin
    · rename_i target existing target' paths
      split at hJoin
      · rename_i hTarget
        cases hJoin
        exact ⟨target, existing, paths, rfl,
          hTarget ▸ rfl, rfl⟩
      · cases hJoin
    · cases hJoin
  · rintro ⟨target, existing, paths, rfl, rfl, rfl⟩
    exact if_pos rfl

theorem joinUnions_eq_none
    {a b : Planned} :
    joinUnions a b = none ↔
      (a.2.IsUnion → b.2.IsUnion → a.1 ≠ b.1) := by
  rcases a with ⟨target, _ | existing | _⟩
  · simp [joinUnions, MountPlan.IsUnion]
  · rcases b with ⟨target', _ | paths | _⟩ <;>
      simp [joinUnions, MountPlan.IsUnion]
  · simp [joinUnions, MountPlan.IsUnion]

namespace Namespace

theorem addToPlan_eq_add
    (plan : List Planned)
    (entry : MountEntry) :
    addToPlan plan entry =
      Merging.add joinUnions plan entry.planned := by
  rcases entry with ⟨target, mount⟩
  rcases List.eq_nil_or_concat' plan with
    rfl | ⟨front, ⟨last, lastPlan⟩, rfl⟩
  · cases mount <;> rfl
  · cases mount with
    | bind path =>
        symm
        apply Merging.add_of_no_join
        cases lastPlan <;> rfl
    | p9 addr path =>
        symm
        apply Merging.add_of_no_join
        cases lastPlan <;> rfl
    | union paths =>
        cases lastPlan with
        | union existing =>
            by_cases hTarget : last = target
            · rw [Merging.add_of_join (if_pos hTarget)]
              simp [addToPlan, hTarget]
            · rw [Merging.add_of_no_join (if_neg hTarget)]
              simp [addToPlan, hTarget, MountEntry.planned]
        | bind path | p9 addr path =>
            rw [Merging.add_of_no_join rfl]
            simp [addToPlan, MountEntry.planned]

/- A plan is the merged list of the plans of the entries. -/
theorem mountPlan_eq_merge (ns : Namespace) :
    ns.mountPlan =
      Merging.merge joinUnions
        (ns.mounts.map MountEntry.planned) := by
  rw [mountPlan, Merging.merge, List.foldl_map]
  congr 1
  funext plan entry
  exact addToPlan_eq_add plan entry

end Namespace

end Planten

------------------------------------------------------------
-- Entries of Plans
------------------------------------------------------------

namespace Planten

/- The entry that is planned so by itself. -/
def Planned.entry (planned : Planned) : MountEntry :=
  ⟨planned.1,
    match planned.2 with
    | .bind path => .bind path
    | .union paths => .union paths
    | .p9 addr path => .p9 addr path⟩

@[simp] theorem MountEntry.entry_planned
    (entry : MountEntry) :
    entry.planned.entry = entry := by
  rcases entry with ⟨target, mount⟩
  cases mount <;> rfl

@[simp] theorem Planned.planned_entry
    (planned : Planned) :
    planned.entry.planned = planned := by
  rcases planned with ⟨target, plan⟩
  cases plan <;> rfl

theorem MountEntry.items_eq (entry : MountEntry) :
    entry.items = entry.planned.items := by
  rcases entry with ⟨target, mount⟩
  cases mount <;> rfl

namespace Namespace

/- Every call adds the one entry it is for. -/
theorem mounts_call
    (ns : Namespace)
    (call : NamespaceCall) :
    ∃ entry, (ns.call call).mounts = ns.mounts ++ [entry] := by
  cases call <;> exact ⟨_, rfl⟩

theorem mounts_call_toCall
    (ns : Namespace)
    (planned : Planned) :
    (ns.call planned.toCall).mounts =
      ns.mounts ++ [planned.entry] := by
  rcases planned with ⟨target, plan⟩
  cases plan <;> rfl

/- A plan is rebuilt entry by entry. -/
theorem mounts_rebuild (plan : List Planned) :
    (rebuild plan).mounts = plan.map Planned.entry := by
  induction plan using List.reverseRecOn with
  | nil =>
      rfl
  | append_singleton plan planned ih =>
      have hCalls :
          rebuild (plan ++ [planned]) =
            (rebuild plan).call planned.toCall := by
        simp [rebuild, ofCalls]
      rw [hCalls, mounts_call_toCall, ih, List.map_append]
      rfl

end Namespace

end Planten

------------------------------------------------------------
-- Blocks of Unions
------------------------------------------------------------

namespace Planten

/- What a union is planned from, however many entries. -/
theorem PlannedFrom.of_union
    {entries : List MountEntry}
    {target : String}
    {paths : List String}
    (hPlanned :
      PlannedFrom entries (target, .union paths)) :
    entries ≠ [] ∧
      (∀ entry ∈ entries,
        entry.target = target ∧ entry.planned.2.IsUnion) ∧
      entries.flatMap MountEntry.unionPaths = paths := by
  generalize hPlan : (target, MountPlan.union paths) = plan
    at hPlanned
  cases hPlanned with
  | entry entry =>
      rcases entry with ⟨target', mount⟩
      cases mount with
      | union paths' =>
          cases hPlan
          refine ⟨List.cons_ne_nil _ _, ?_, ?_⟩
          · intro entry hMem
            rw [List.mem_singleton.mp hMem]
            exact ⟨rfl, trivial⟩
          · exact List.append_nil paths
      | bind path | p9 addr path =>
          cases hPlan
  | unions hEntries hUnions =>
      cases hPlan
      exact ⟨hEntries, hUnions, rfl⟩

/- The joined plans of a block are planned from it. -/
theorem plannedFrom_of_joinedFrom
    {block : List Planned}
    {planned : Planned}
    (hJoined :
      Merging.JoinedFrom joinUnions block planned) :
    PlannedFrom (block.map Planned.entry) planned := by
  induction hJoined with
  | single planned =>
      have hEntry := PlannedFrom.entry planned.entry
      rw [Planned.planned_entry] at hEntry
      exact hEntry
  | @more block a b c hBlock hJoin ih =>
      rcases joinUnions_eq_some.mp hJoin with
        ⟨target, existing, paths, rfl, rfl, rfl⟩
      rcases ih.of_union with ⟨_, hUnions, hPaths⟩
      have hAll :
          (block.map Planned.entry ++ [Planned.entry (target, .union paths)]).flatMap
            MountEntry.unionPaths = existing ++ paths := by
        rw [List.flatMap_append, hPaths,
          List.flatMap_singleton]
        rfl
      rw [List.map_append, ← hAll]
      apply PlannedFrom.unions
      · exact List.append_ne_nil_of_right_ne_nil _
          (List.cons_ne_nil _ _)
      · intro entry hMem
        rcases List.mem_append.mp hMem with hOld | hNew
        · exact hUnions entry hOld
        · rw [List.mem_singleton.mp hNew]
          exact ⟨rfl, trivial⟩

/- Every plan comes from a block of neighbouring entries. -/
theorem Namespace.blocks_mountPlan (ns : Namespace) :
    ∃ entries,
      entries.flatten = ns.mounts ∧
        List.Forall₂ PlannedFrom entries ns.mountPlan := by
  rw [mountPlan_eq_merge]
  rcases Merging.blocks_merge
      (ns.mounts.map MountEntry.planned) with
    ⟨blocks, hFlatten, hBlocks⟩
  refine ⟨blocks.map (List.map Planned.entry), ?_, ?_⟩
  · rw [← List.map_flatten, hFlatten, List.map_map]
    simp [Function.comp_def]
  · rw [List.forall₂_map_left_iff]
    exact hBlocks.imp
      (fun _ _ hJoined => plannedFrom_of_joinedFrom hJoined)

end Planten

------------------------------------------------------------
-- The Canonical Plan
------------------------------------------------------------

namespace Planten

namespace Namespace

/- What two unions share stays with the union they make. -/
theorem items_of_joinUnions
    (a b c : Planned)
    (hJoin : joinUnions a b = some c) :
    c.items = a.items ++ b.items := by
  rcases joinUnions_eq_some.mp hJoin with
    ⟨target, existing, paths, rfl, rfl, rfl⟩
  exact List.map_append

theorem items_mountPlan (ns : Namespace) :
    ns.mountPlan.flatMap Planned.items =
      ns.mounts.flatMap MountEntry.items := by
  rw [mountPlan_eq_merge,
    Merging.flatMap_merge items_of_joinUnions,
    List.flatMap_map]
  congr 1
  funext entry
  exact (entry.items_eq).symm

/- What is no union is planned as it is. -/
theorem others_mountPlan (ns : Namespace) :
    ns.mountPlan.filter
        (fun planned => ¬ planned.2.IsUnion) =
      (ns.mounts.map MountEntry.planned).filter
        (fun planned => ¬ planned.2.IsUnion) := by
  rw [mountPlan_eq_merge]
  apply Merging.filter_merge
  intro a b c hJoin
  rcases joinUnions_eq_some.mp hJoin with
    ⟨target, existing, paths, rfl, rfl, rfl⟩
  simp [MountPlan.IsUnion]

theorem separated_mountPlan (ns : Namespace) :
    Merging.Separated joinUnions ns.mountPlan := by
  rw [mountPlan_eq_merge]
  apply Merging.separated_merge
  intro x a b c hJoin hNone
  rcases joinUnions_eq_some.mp hJoin with
    ⟨target, existing, paths, rfl, rfl, rfl⟩
  rw [joinUnions_eq_none] at hNone ⊢
  intro hUnion _
  exact hNone hUnion trivial

/- A plan that is rebuilt and planned again is the same. -/
theorem mountPlan_rebuild (ns : Namespace) :
    (rebuild ns.mountPlan).mountPlan = ns.mountPlan := by
  rw [mountPlan_eq_merge, mounts_rebuild, List.map_map]
  simp only [Function.comp_def, Planned.planned_entry,
    List.map_id']
  exact Merging.merge_of_separated
    ns.separated_mountPlan

theorem changesLast_call
    (ns : Namespace)
    (call : NamespaceCall) :
    ChangesLast ns.mountPlan (ns.call call).mountPlan := by
  rcases ns.mounts_call call with ⟨entry, hMounts⟩
  have hPlan :
      (ns.call call).mountPlan =
        Merging.add joinUnions ns.mountPlan
          entry.planned := by
    rw [mountPlan, hMounts, List.foldl_append]
    exact addToPlan_eq_add ns.mountPlan entry
  rw [hPlan]
  rcases Merging.add_cases joinUnions ns.mountPlan
      entry.planned with
    hNew | ⟨front, a, c, hLast, _, hChanged⟩
  · exact Or.inl ⟨_, hNew⟩
  · exact Or.inr ⟨front, a, c, hLast, hChanged⟩

/-
  The plan of every namespace is the canonical one of its
  entries, and a further call changes its end only.
-/
theorem canonicalPlan (ns : Namespace) :
    CanonicalPlan ns.mounts ns.mountPlan ∧
      ∀ call,
        ChangesLast ns.mountPlan
          (ns.call call).mountPlan := by
  refine ⟨?_, ns.changesLast_call⟩
  constructor
  · exact ns.items_mountPlan
  · exact ns.others_mountPlan
  · exact ns.separated_mountPlan.imp
      (fun _ _ hNone => joinUnions_eq_none.mp hNone)
  · exact ns.blocks_mountPlan
  · exact ns.mountPlan_rebuild

end Namespace

end Planten
