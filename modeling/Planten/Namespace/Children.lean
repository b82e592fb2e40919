import Planten.Library.Asking
import Planten.Namespace.Addresses
import Planten.Namespace.ServiceShares
import Planten.Namespace.UnionMembers

/-
  The child of `10_ns`.

  The child leaves the mount namespace of its parent, mounts
  what is planned, and becomes the command.  What the host
  answers to a call may depend on all the calls before it.
  An entry that fails does not stop the others; only a union
  without a temporary directory does.

  The directory of a union is a temporary one, and goes away
  with all that is in it when the union is mounted.

  Key definitions include:
    * `HostCall`
    * `ensureMountPoint`, `mount9pTarget`
    * `mountPlanned`
    * `child`
    * `Carried`, `ChildTrace`

  Key theorems include:
    * `leaves_mountPlanned_true_iff`
    * `leaves_child_iff`
    * `child_traces`
    * `mounts_probed_shares`
    * `removes_union_members`
-/

------------------------------------------------------------
-- The Child
------------------------------------------------------------

namespace Planten

open Asking (Trace question)

/- What the child asks of its host. -/
inductive HostCall where
| unshare
| bindMount (source target : String)
| mount9p (source target options : String)
| tempDir
| removeDirAll (path : String)
| pathExists (path : String)
| isDir (path : String)
| createDirAll (path : String)
| probe (addr remotePath : String)
| execvp (args : List String)
deriving DecidableEq, Repr

/- What it is told: a value, or the text of an error. -/
abbrev HostAnswer : Type :=
  Except String String

abbrev HostTrace : Type :=
  Trace HostCall HostAnswer

abbrev ChildM (α : Type) : Type :=
  Asking HostCall HostAnswer α

def ensureMountPoint
    (target : String) : ChildM (Except String Unit) := do
  match ← question (.pathExists target) with
  | .ok _ =>
      match ← question (.isDir target) with
      | .ok _ => pure (.ok ())
      | .error _ =>
          pure (.error
            (target ++ " exists and is not a directory"))
  | .error _ =>
      match ← question (.createDirAll target) with
      | .ok _ => pure (.ok ())
      | .error e => pure (.error e)

/- The options of a mount, for a port and a remote path. -/
def mountOptions
    (port : UInt16)
    (remotePath : String) : String :=
  "trans=tcp,port=" ++ port.toNat.repr ++ ",aname=" ++
    (if remotePath = "" then "/" else remotePath) ++
    ",msize=131072,cache=loose"

def mount9pTarget
    (target addr remotePath : String) :
    ChildM (Except String Unit) := do
  match ← ensureMountPoint target with
  | .error e =>
      pure (.error ("invalid mount point " ++ target ++
        ": " ++ e))
  | .ok _ =>
      match parse9pAddr addr with
      | .error e => pure (.error e)
      | .ok (host, port) =>
          match ← question (.mount9p host target
              (mountOptions port remotePath)) with
          | .ok _ => pure (.ok ())
          | .error e =>
              pure (.error
                ("mount system call failed: " ++ e))

def BindMount.call (mount : BindMount) : HostCall :=
  .bindMount mount.source mount.target

/-
  One entry of the plan; false ends the child.  What fails is
  reported and passed over.  The temporary directory of a
  union is removed at the end of it.
-/
def mountPlanned : Planned → ChildM Bool
| (new, .bind path) => do
    let _ ← question (.bindMount path new)
    pure true
| (new, .union paths) => do
    match ← question .tempDir with
    | .error _ => pure false
    | .ok tmpDir =>
        Asking.asks BindMount.call
          (unionMounts tmpDir new paths)
        let _ ← question (.removeDirAll tmpDir)
        pure true
| (new, .p9 addr path) => do
    match ← question (.probe addr path) with
    | .error _ => pure true
    | .ok _ =>
        let _ ← mount9pTarget new addr path
        pure true

/- The child, with the arguments of the command. -/
def child
    (ns : Namespace)
    (cmdArgs : List String) : ChildM Unit := do
  match ← question .unshare with
  | .error _ => pure ()
  | .ok _ =>
      if ← Asking.whileDone mountPlanned ns.mountPlan then
        let _ ← question (.execvp cmdArgs)
        pure ()
      else
        pure ()

end Planten

------------------------------------------------------------
-- Traces
------------------------------------------------------------

namespace Planten

/- How a mount point is ensured, and whether it is one. -/
inductive Placed (target : String) :
    Bool → HostTrace → Prop where
| found {s s' : String} :
    Placed target true
      [(.pathExists target, .ok s), (.isDir target, .ok s')]
| occupied {s e : String} :
    Placed target false
      [(.pathExists target, .ok s),
        (.isDir target, .error e)]
| made {e s : String} :
    Placed target true
      [(.pathExists target, .error e),
        (.createDirAll target, .ok s)]
| unmade {e e' : String} :
    Placed target false
      [(.pathExists target, .error e),
        (.createDirAll target, .error e')]

/- The calls of an entry that does not end the child. -/
inductive Carried : Planned → HostTrace → Prop where
| bind
    {new path : String} {answer : HostAnswer} :
    Carried (new, .bind path)
      [(.bindMount path new, answer)]
| union
    {new tmpDir : String} {paths : List String}
    {mounts : HostTrace} {answer : HostAnswer}
    (hMounts :
      mounts.map Prod.fst =
        (unionMounts tmpDir new paths).map BindMount.call) :
    Carried (new, .union paths)
      ((.tempDir, .ok tmpDir) ::
        (mounts ++ [(.removeDirAll tmpDir, answer)]))
| unprobed
    {new addr path e : String} :
    Carried (new, .p9 addr path)
      [(.probe addr path, .error e)]
| unplaced
    {new addr path s : String} {places : HostTrace}
    (hPlaces : Placed new false places) :
    Carried (new, .p9 addr path)
      ((.probe addr path, .ok s) :: places)
| misaddressed
    {new addr path s e : String} {places : HostTrace}
    (hPlaces : Placed new true places)
    (hAddr : parse9pAddr addr = .error e) :
    Carried (new, .p9 addr path)
      ((.probe addr path, .ok s) :: places)
| mounted
    {new addr path s host : String} {port : UInt16}
    {places : HostTrace} {answer : HostAnswer}
    (hPlaces : Placed new true places)
    (hAddr : parse9pAddr addr = .ok (host, port)) :
    Carried (new, .p9 addr path)
      ((.probe addr path, .ok s) ::
        (places ++
          [(.mount9p host new (mountOptions port path),
            answer)]))

/-
  The traces of the child.  Each entry has its segment, in
  the order of the plan, and the command comes last; or the
  child ends where a union has no temporary directory.
-/
inductive ChildTrace
    (plan : List Planned)
    (cmdArgs : List String) : HostTrace → Prop where
| denied {e : String} :
    ChildTrace plan cmdArgs [(.unshare, .error e)]
| commanded
    {s : String} {segments : List HostTrace}
    {answer : HostAnswer}
    (hCarried : List.Forall₂ Carried plan segments) :
    ChildTrace plan cmdArgs
      ((.unshare, .ok s) ::
        (segments.flatten ++ [(.execvp cmdArgs, answer)]))
| stopped
    {s e new : String} {paths : List String}
    {first rest : List Planned} {segments : List HostTrace}
    (hPlan : plan = first ++ (new, .union paths) :: rest)
    (hCarried : List.Forall₂ Carried first segments) :
    ChildTrace plan cmdArgs
      ((.unshare, .ok s) ::
        (segments.flatten ++ [(.tempDir, .error e)]))

open Asking (Oracle Leaves leaves_bind_iff
  leaves_question_bind_iff leaves_pure_iff leaves_asks_iff
  leaves_whileDone_true_iff leaves_whileDone_false_iff)

theorem leaves_ensureMountPoint_iff
    {target : String}
    {placed : Bool}
    {t : HostTrace} :
    (∃ result : Except String Unit,
      result.isOk = placed ∧
        Leaves (ensureMountPoint target) result t) ↔
      Placed target placed t := by
  unfold ensureMountPoint
  constructor
  · rintro ⟨result, rfl, hLeaves⟩
    rw [leaves_question_bind_iff] at hLeaves
    rcases hLeaves with ⟨s | s, rest, rfl, hLeaves⟩
    · rw [leaves_question_bind_iff] at hLeaves
      rcases hLeaves with ⟨s' | s', rest', rfl, hLeaves⟩
      · rw [leaves_pure_iff] at hLeaves
        rcases hLeaves with ⟨rfl, rfl⟩
        exact .unmade
      · rw [leaves_pure_iff] at hLeaves
        rcases hLeaves with ⟨rfl, rfl⟩
        exact .made
    · rw [leaves_question_bind_iff] at hLeaves
      rcases hLeaves with ⟨s' | s', rest', rfl, hLeaves⟩
      · rw [leaves_pure_iff] at hLeaves
        rcases hLeaves with ⟨rfl, rfl⟩
        exact .occupied
      · rw [leaves_pure_iff] at hLeaves
        rcases hLeaves with ⟨rfl, rfl⟩
        exact .found
  · intro hPlaced
    cases hPlaced with
    | found | occupied | made | unmade =>
        exact ⟨_, rfl, .ask (.ask .done)⟩

/- The traces of a 9P mount, whatever it returns. -/
theorem leaves_mount9pTarget_iff
    {target addr path : String}
    {t : HostTrace} :
    (∃ result, Leaves (mount9pTarget target addr path)
      result t) ↔
      Placed target false t ∨
        (Placed target true t ∧
          ∃ e, parse9pAddr addr = .error e) ∨
        ∃ places host port answer,
          t = places ++
              [(.mount9p host target (mountOptions port path),
                answer)] ∧
            Placed target true places ∧
              parse9pAddr addr = .ok (host, port) := by
  unfold mount9pTarget
  constructor
  · rintro ⟨result, hLeaves⟩
    rw [leaves_bind_iff] at hLeaves
    rcases hLeaves with
      ⟨placed, places, rest, rfl, hPlaces, hLeaves⟩
    have hPlaced :=
      leaves_ensureMountPoint_iff.mp ⟨placed, rfl, hPlaces⟩
    rcases placed with e | ⟨⟩
    · rw [leaves_pure_iff] at hLeaves
      rcases hLeaves with ⟨_, rfl⟩
      rw [List.append_nil]
      exact Or.inl hPlaced
    · cases hAddr : parse9pAddr addr with
      | error e =>
          simp only [hAddr] at hLeaves
          rw [leaves_pure_iff] at hLeaves
          rcases hLeaves with ⟨_, rfl⟩
          rw [List.append_nil]
          exact Or.inr (Or.inl ⟨hPlaced, e, rfl⟩)
      | ok endpoint =>
          rcases endpoint with ⟨host, port⟩
          simp only [hAddr] at hLeaves
          rw [leaves_question_bind_iff] at hLeaves
          rcases hLeaves with ⟨answer, rest', rfl, hLeaves⟩
          have hNil : rest' = [] := by
            rcases answer with e | s <;>
              exact (leaves_pure_iff.mp hLeaves).2
          subst hNil
          exact Or.inr (Or.inr
            ⟨places, host, port, answer, rfl, hPlaced, rfl⟩)
  · rintro (hPlaced | ⟨hPlaced, e, hAddr⟩ |
      ⟨places, host, port, answer, rfl, hPlaced, hAddr⟩)
    · rcases leaves_ensureMountPoint_iff.mpr hPlaced with
        ⟨e | s, hFalse, hLeaves⟩
      · exact ⟨.error ("invalid mount point " ++ target ++
          ": " ++ e), hLeaves.bind_done rfl⟩
      · cases hFalse
    · rcases leaves_ensureMountPoint_iff.mpr hPlaced with
        ⟨e' | ⟨⟩, hTrue, hLeaves⟩
      · cases hTrue
      · refine ⟨.error e, hLeaves.bind_done ?_⟩
        simp only [hAddr]
    · rcases leaves_ensureMountPoint_iff.mpr hPlaced with
        ⟨e' | ⟨⟩, hTrue, hLeaves⟩
      · cases hTrue
      · rcases answer with e | s
        · refine ⟨.error ("mount system call failed: " ++ e),
            hLeaves.bind ?_⟩
          simp only [hAddr]
          exact .ask .done
        · refine ⟨.ok (), hLeaves.bind ?_⟩
          simp only [hAddr]
          exact .ask .done

theorem leaves_mountPlanned_true_iff
    {planned : Planned}
    {t : HostTrace} :
    Leaves (mountPlanned planned) true t ↔
      Carried planned t := by
  rcases planned with ⟨new, path | paths | ⟨addr, path⟩⟩
  · unfold mountPlanned
    rw [leaves_question_bind_iff]
    constructor
    · rintro ⟨answer, rest, rfl, hLeaves⟩
      rcases leaves_pure_iff.mp hLeaves with ⟨_, rfl⟩
      exact .bind
    · intro hCarried
      cases hCarried with
      | bind =>
          exact ⟨_, [], rfl, .done⟩
  · unfold mountPlanned
    rw [leaves_question_bind_iff]
    constructor
    · rintro ⟨e | tmpDir, rest, rfl, hLeaves⟩
      · rcases leaves_pure_iff.mp hLeaves with ⟨hFalse, _⟩
        cases hFalse
      · rw [leaves_bind_iff] at hLeaves
        rcases hLeaves with
          ⟨_, mounts, rest', rfl, hMounts, hLeaves⟩
        rw [leaves_question_bind_iff] at hLeaves
        rcases hLeaves with ⟨answer, rest, rfl, hLeaves⟩
        rcases leaves_pure_iff.mp hLeaves with ⟨_, rfl⟩
        exact .union (leaves_asks_iff.mp hMounts)
    · intro hCarried
      cases hCarried with
      | union hMounts =>
          exact ⟨_, _, rfl, Leaves.bind
            (leaves_asks_iff.mpr hMounts) (.ask .done)⟩
  · unfold mountPlanned
    rw [leaves_question_bind_iff]
    constructor
    · rintro ⟨e | s, rest, rfl, hLeaves⟩
      · rcases leaves_pure_iff.mp hLeaves with ⟨_, rfl⟩
        exact .unprobed
      · rw [leaves_bind_iff] at hLeaves
        rcases hLeaves with
          ⟨result, first, rest', rfl, hMount, hLeaves⟩
        rcases leaves_pure_iff.mp hLeaves with ⟨_, rfl⟩
        rw [List.append_nil]
        rcases leaves_mount9pTarget_iff.mp ⟨result, hMount⟩
          with
          hPlaces | ⟨hPlaces, e, hAddr⟩ |
            ⟨places, host, port, answer, rfl, hPlaces,
              hAddr⟩
        · exact .unplaced hPlaces
        · exact .misaddressed hPlaces hAddr
        · exact .mounted hPlaces hAddr
    · intro hCarried
      cases hCarried with
      | unprobed =>
          exact ⟨_, [], rfl, .done⟩
      | unplaced hPlaces =>
          rcases leaves_mount9pTarget_iff.mpr
            (Or.inl hPlaces) with ⟨result, hMount⟩
          exact ⟨_, _, rfl, hMount.bind_done rfl⟩
      | misaddressed hPlaces hAddr =>
          rcases leaves_mount9pTarget_iff.mpr
            (Or.inr (Or.inl ⟨hPlaces, _, hAddr⟩)) with
            ⟨result, hMount⟩
          exact ⟨_, _, rfl, hMount.bind_done rfl⟩
      | mounted hPlaces hAddr =>
          rcases leaves_mount9pTarget_iff.mpr
            (Or.inr (Or.inr ⟨_, _, _, _, rfl, hPlaces,
              hAddr⟩)) with ⟨result, hMount⟩
          exact ⟨_, _, rfl, hMount.bind_done rfl⟩

/- Only a union without a directory ends the child. -/
theorem leaves_mountPlanned_false_iff
    {planned : Planned}
    {t : HostTrace} :
    Leaves (mountPlanned planned) false t ↔
      ∃ new paths e,
        planned = (new, .union paths) ∧
          t = [(.tempDir, .error e)] := by
  rcases planned with ⟨new, path | paths | ⟨addr, path⟩⟩
  · unfold mountPlanned
    rw [leaves_question_bind_iff]
    constructor
    · rintro ⟨answer, rest, rfl, hLeaves⟩
      cases (leaves_pure_iff.mp hLeaves).1
    · rintro ⟨_, _, _, hPlanned, _⟩
      cases hPlanned
  · unfold mountPlanned
    rw [leaves_question_bind_iff]
    constructor
    · rintro ⟨e | tmpDir, rest, rfl, hLeaves⟩
      · rcases leaves_pure_iff.mp hLeaves with ⟨_, rfl⟩
        exact ⟨new, paths, e, rfl, rfl⟩
      · rw [leaves_bind_iff] at hLeaves
        rcases hLeaves with ⟨_, _, _, _, _, hLeaves⟩
        rw [leaves_question_bind_iff] at hLeaves
        rcases hLeaves with ⟨_, _, _, hLeaves⟩
        cases (leaves_pure_iff.mp hLeaves).1
    · rintro ⟨_, _, e, hPlanned, rfl⟩
      exact ⟨_, [], rfl, .done⟩
  · unfold mountPlanned
    rw [leaves_question_bind_iff]
    constructor
    · rintro ⟨e | s, rest, rfl, hLeaves⟩
      · cases (leaves_pure_iff.mp hLeaves).1
      · rw [leaves_bind_iff] at hLeaves
        rcases hLeaves with ⟨_, _, _, _, _, hLeaves⟩
        cases (leaves_pure_iff.mp hLeaves).1
    · rintro ⟨_, _, _, hPlanned, _⟩
      cases hPlanned

/- The child leaves the traces of its plan, and no others. -/
theorem leaves_child_iff
    {ns : Namespace}
    {cmdArgs : List String}
    {t : HostTrace} :
    Leaves (child ns cmdArgs) () t ↔
      ChildTrace ns.mountPlan cmdArgs t := by
  unfold child
  rw [leaves_question_bind_iff]
  constructor
  · rintro ⟨e | s, rest, rfl, hLeaves⟩
    · rcases leaves_pure_iff.mp hLeaves with ⟨_, rfl⟩
      exact .denied
    · rw [leaves_bind_iff] at hLeaves
      rcases hLeaves with
        ⟨finished, mounts, last, rfl, hMounts, hLeaves⟩
      cases finished with
      | true =>
          rw [leaves_whileDone_true_iff] at hMounts
          rcases hMounts with ⟨segments, rfl, hAll⟩
          rw [if_pos rfl, leaves_question_bind_iff]
            at hLeaves
          rcases hLeaves with ⟨answer, rest, rfl, hLeaves⟩
          rcases leaves_pure_iff.mp hLeaves with ⟨_, rfl⟩
          exact .commanded (hAll.imp (fun _ _ hSegment =>
            leaves_mountPlanned_true_iff.mp hSegment))
      | false =>
          rw [leaves_whileDone_false_iff] at hMounts
          rcases hMounts with
            ⟨segments, first, planned, rest, final, hPlan,
              rfl, hAll, hFinal⟩
          rw [leaves_mountPlanned_false_iff] at hFinal
          rcases hFinal with ⟨new, paths, e, rfl, rfl⟩
          rcases leaves_pure_iff.mp hLeaves with ⟨_, rfl⟩
          rw [List.append_nil]
          exact .stopped hPlan (hAll.imp (fun _ _ hSegment =>
            leaves_mountPlanned_true_iff.mp hSegment))
  · intro hTrace
    cases hTrace with
    | denied =>
        exact ⟨_, [], rfl, .done⟩
    | commanded hCarried =>
        refine ⟨_, _, rfl, Leaves.bind
          (leaves_whileDone_true_iff.mpr ⟨_, rfl, ?_⟩)
          (.ask .done)⟩
        exact hCarried.imp (fun _ _ hSegment =>
          leaves_mountPlanned_true_iff.mpr hSegment)
    | stopped hPlan hCarried =>
        refine ⟨_, _, rfl, Leaves.bind_done
          (leaves_whileDone_false_iff.mpr
            ⟨_, _, _, _, _, hPlan, rfl, ?_,
              leaves_mountPlanned_false_iff.mpr
                ⟨_, _, _, rfl, rfl⟩⟩) rfl⟩
        exact hCarried.imp (fun _ _ hSegment =>
          leaves_mountPlanned_true_iff.mpr hSegment)

/-
  The traces that some host makes the child leave are those
  of the plan of its namespace.
-/
theorem child_traces
    (ns : Namespace)
    (cmdArgs : List String)
    (t : HostTrace) :
    (∃ host : Oracle HostCall HostAnswer,
      (Asking.run host [] (child ns cmdArgs)).2 = t) ↔
      ChildTrace ns.mountPlan cmdArgs t := by
  have : Inhabited HostAnswer := ⟨.error ""⟩
  exact Asking.exists_trace_iff.trans leaves_child_iff

end Planten

------------------------------------------------------------
-- Mounts of a Trace
------------------------------------------------------------

namespace Planten

open Asking (Oracle)

/- The calls that change what is mounted. -/
def HostCall.Mounts : HostCall → Prop
| .bindMount _ _ | .mount9p _ _ _ => True
| _ => False

variable {plan : List Planned} {cmdArgs : List String}
variable {before after : HostTrace} {call : HostCall}
variable {answer : HostAnswer}

/-
  A mount belongs to the segment of an entry, and the child
  has left the mount namespace of its parent before.
-/
theorem ChildTrace.exists_carried
    (hTrace :
      ChildTrace plan cmdArgs
        (before ++ (call, answer) :: after))
    (hMounts : call.Mounts) :
    ∃ planned ∈ plan, ∃ earlier inner rest later,
      Carried planned (inner ++ (call, answer) :: rest) ∧
        before = earlier ++ inner ∧ after = rest ++ later ∧
        ∃ s, (.unshare, .ok s) ∈ earlier := by
  have hInside
      {s : String}
      {segments : List HostTrace}
      {last : HostCall × HostAnswer}
      {entries : List Planned}
      (hCarried : List.Forall₂ Carried entries segments)
      (hLast : ¬ last.1.Mounts)
      (hSplit :
        before ++ (call, answer) :: after =
          (.unshare, .ok s) ::
            (segments.flatten ++ [last])) :
      ∃ planned ∈ entries, ∃ earlier inner rest later,
        Carried planned (inner ++ (call, answer) :: rest) ∧
          before = earlier ++ inner ∧
          after = rest ++ later ∧
          ∃ s, (.unshare, .ok s) ∈ earlier := by
    cases before with
    | nil =>
        cases hSplit
        exact hMounts.elim
    | cons e before =>
        rw [List.cons_append, List.cons_eq_cons] at hSplit
        rcases hSplit with ⟨rfl, hSplit⟩
        rcases Asking.last_or_before hSplit with
          ⟨_, rfl, _⟩ | ⟨after', rfl, hFlat⟩
        · exact (hLast hMounts).elim
        · rcases Asking.exists_segment hCarried hFlat with
            ⟨planned, hMem, earlier, inner, rest, later,
              hSegment, rfl, rfl⟩
          exact ⟨planned, hMem, _ :: earlier, inner, rest,
            later ++ [last], hSegment, rfl,
            List.append_assoc .., s, List.mem_cons_self ..⟩
  generalize hSplit : before ++ (call, answer) :: after = t
    at hTrace
  cases hTrace with
  | denied =>
      rcases before with _ | ⟨e, before⟩
      · cases hSplit
        exact hMounts.elim
      · simp at hSplit
  | commanded hCarried =>
      exact hInside hCarried id hSplit
  | stopped hPlan hCarried =>
      rcases hInside hCarried id hSplit with
        ⟨planned, hMem, hRest⟩
      rw [hPlan]
      exact ⟨planned, List.mem_append_left _ hMem, hRest⟩

/- To ensure a mount point mounts nothing. -/
theorem Placed.not_mounts
    {target : String}
    {placed : Bool}
    {places : HostTrace}
    (hPlaced : Placed target placed places)
    (hMem : (call, answer) ∈ places) :
    ¬ call.Mounts := by
  intro hMounts
  cases hPlaced with
  | found | occupied | made | unmade =>
      simp only [List.mem_cons, List.not_mem_nil, or_false,
        Prod.mk.injEq] at hMem
      rcases hMem with ⟨rfl, _⟩ | ⟨rfl, _⟩ <;> exact hMounts

theorem Placed.exists_directory
    {target : String}
    {places : HostTrace}
    (hPlaced : Placed target true places) :
    ∃ s,
      (.isDir target, .ok s) ∈ places ∨
        (.createDirAll target, .ok s) ∈ places := by
  cases hPlaced with
  | found =>
      exact ⟨_, Or.inl (List.mem_cons_of_mem _
        (List.mem_cons_self ..))⟩
  | made =>
      exact ⟨_, Or.inr (List.mem_cons_of_mem _
        (List.mem_cons_self ..))⟩

/- A segment holds a 9P mount as its last call only. -/
theorem Carried.exists_probe
    {planned : Planned}
    {source target options : String}
    (hCarried :
      Carried planned
        (before ++
          (.mount9p source target options, answer) ::
            after)) :
    ∃ addr path port s,
      planned = (target, .p9 addr path) ∧
        parse9pAddr addr = .ok (source, port) ∧
        options = mountOptions port path ∧
        (.probe addr path, .ok s) ∈ before ∧
        ∃ s',
          (.isDir target, .ok s') ∈ before ∨
            (.createDirAll target, .ok s') ∈ before := by
  generalize hSplit :
    before ++ (.mount9p source target options, answer) ::
      after = segment at hCarried
  have hMem :
      (.mount9p source target options, answer) ∈
        segment := by
    rw [← hSplit]
    simp
  cases hCarried with
  | bind | unprobed =>
      simp at hMem
  | @union new tmpDir paths mounts answer' hMounts =>
      have hHere :
          (.mount9p source target options, answer) ∈
            mounts := by
        simpa using hMem
      have hCall := List.mem_map_of_mem (f := Prod.fst) hHere
      rw [hMounts] at hCall
      rcases List.mem_map.mp hCall with ⟨mount, _, hEq⟩
      cases hEq
  | unplaced hPlaces | misaddressed hPlaces hAddr =>
      have hHere := by
        simpa using hMem
      exact (hPlaces.not_mounts hHere trivial).elim
  | @mounted new addr path s host port places answer' hPlaces
      hAddr =>
      rw [← List.cons_append] at hSplit
      rcases Asking.last_or_before hSplit with
        ⟨rfl, hEq, _⟩ | ⟨after', _, hInit⟩
      · cases hEq
        rcases hPlaces.exists_directory with ⟨s', hPlace⟩
        refine ⟨addr, path, port, s, rfl, hAddr, rfl,
          List.mem_cons_self .., s', ?_⟩
        exact hPlace.imp (List.mem_cons_of_mem _)
          (List.mem_cons_of_mem _)
      · have hHere :
            (.mount9p source target options, answer) ∈
              places := by
          have hCons :
              (.mount9p source target options, answer) ∈
                (.probe addr path, .ok s) :: places := by
            rw [hInit]
            simp
          simpa using hCons
        exact (hPlaces.not_mounts hHere trivial).elim

/- What a segment mounts is its entry, or of its union. -/
theorem Carried.exists_removal
    {planned : Planned}
    {source target : String}
    (hCarried :
      Carried planned
        (before ++ (.bindMount source target, answer) ::
          after)) :
    planned = (target, .bind source) ∨
      ∃ new paths tmpDir removed,
        planned = (new, .union paths) ∧
          (.tempDir, .ok tmpDir) ∈ before ∧
          (.removeDirAll tmpDir, removed) ∈ after ∧
          ⟨source, target⟩ ∈ unionMounts tmpDir new paths := by
  generalize hSplit :
    before ++ (.bindMount source target, answer) :: after =
      segment at hCarried
  have hMem :
      (.bindMount source target, answer) ∈ segment := by
    rw [← hSplit]
    simp
  cases hCarried with
  | bind =>
      left
      have hEq := List.mem_singleton.mp hMem
      cases hEq
      rfl
  | unprobed =>
      simp at hMem
  | @union new tmpDir paths mounts removed hMounts =>
      right
      have hHere :
          (.bindMount source target, answer) ∈ mounts := by
        simpa using hMem
      have hCall := List.mem_map_of_mem (f := Prod.fst) hHere
      rw [hMounts] at hCall
      rcases List.mem_map.mp hCall with
        ⟨mount, hMount, hEq⟩
      cases hEq
      refine ⟨new, paths, tmpDir, removed, rfl, ?_, ?_,
        hMount⟩
      · cases before with
        | nil =>
            cases hSplit
        | cons e before =>
            rcases List.cons_eq_cons.mp hSplit with ⟨rfl, _⟩
            exact List.mem_cons_self ..
      · rw [← List.cons_append] at hSplit
        rcases Asking.last_or_before hSplit with
          ⟨_, hEq, _⟩ | ⟨after', rfl, _⟩
        · cases hEq
        · simp
  | unplaced hPlaces | misaddressed hPlaces hAddr =>
      have hHere := by
        simpa using hMem
      exact (hPlaces.not_mounts hHere trivial).elim
  | mounted hPlaces hAddr =>
      have hHere := by
        simpa using hMem
      exact (hPlaces.not_mounts hHere trivial).elim

end Planten

------------------------------------------------------------
-- What the Child Mounts
------------------------------------------------------------

namespace Planten

open Asking (Oracle)

variable {before after : HostTrace} {answer : HostAnswer}

/- A trace of a run is one of the plan. -/
theorem childTrace_of_run
    {host : Oracle HostCall HostAnswer}
    {ns : Namespace}
    {cmdArgs : List String}
    {t : HostTrace}
    (hTrace :
      (Asking.run host [] (child ns cmdArgs)).2 = t) :
    ChildTrace ns.mountPlan cmdArgs t := by
  rcases Asking.exists_leaves_run host (child ns cmdArgs) []
    with ⟨t', hRun, hLeaves⟩
  cases hTrace.symm.trans hRun
  exact leaves_child_iff.mp hLeaves

/-
  Whatever the host answers, a 9P mount is of a planned share
  whose address is understood, and it is made on a directory,
  after a probe of the share that succeeded and after the
  mount namespace of the parent was left.
-/
theorem mounts_probed_shares
    (host : Oracle HostCall HostAnswer)
    (ns : Namespace)
    (cmdArgs : List String)
    {source target options : String}
    (hTrace :
      (Asking.run host [] (child ns cmdArgs)).2 =
        before ++
          (.mount9p source target options, answer) ::
            after) :
    ∃ addr path port,
      (target, .p9 addr path) ∈ ns.mountPlan ∧
        parse9pAddr addr = .ok (source, port) ∧
        options = mountOptions port path ∧
        (∃ s, (.unshare, .ok s) ∈ before) ∧
        (∃ s, (.probe addr path, .ok s) ∈ before) ∧
        ∃ s,
          (.isDir target, .ok s) ∈ before ∨
            (.createDirAll target, .ok s) ∈ before := by
  rcases (childTrace_of_run hTrace).exists_carried trivial
    with ⟨planned, hPlanned, earlier, inner, rest, later,
      hCarried, rfl, rfl, s, hUnshare⟩
  rcases hCarried.exists_probe with
    ⟨addr, path, port, s', rfl, hAddr, hOptions, hProbe,
      s'', hPlace⟩
  refine ⟨addr, path, port, hPlanned, hAddr, hOptions,
    ⟨s, List.mem_append_left _ hUnshare⟩,
    ⟨s', List.mem_append_right _ hProbe⟩, s'', ?_⟩
  exact hPlace.imp (List.mem_append_right _)
    (List.mem_append_right _)

/- The place of a member is in the directory of its union. -/
theorem prefix_hostPlace_unionTarget
    (tmpDir : String)
    {path : String}
    (hDots : lastPiece path ≠ "..") :
    hostPlace tmpDir <+: hostPlace (unionTarget tmpDir path) := by
  rw [hostPlace_unionTarget]
  split
  · exact List.prefix_rfl
  · rw [stepPlace]
    split
    · exact List.prefix_rfl
    · exact List.prefix_append ..

/-
  Whatever the host answers, a bind mount is of an entry, or
  it is of a union and the temporary directory of the union
  is removed, with all that is in it, after the mount; and
  where it mounts a member, the member is in that directory,
  unless its path ends in two dots.
-/
theorem removes_union_members
    (host : Oracle HostCall HostAnswer)
    (ns : Namespace)
    (cmdArgs : List String)
    {source target : String}
    (hTrace :
      (Asking.run host [] (child ns cmdArgs)).2 =
        before ++
          (.bindMount source target, answer) :: after) :
    (target, .bind source) ∈ ns.mountPlan ∨
      ∃ new paths tmpDir removed,
        (new, .union paths) ∈ ns.mountPlan ∧
          (.tempDir, .ok tmpDir) ∈ before ∧
          (.removeDirAll tmpDir, removed) ∈ after ∧
          ((source = tmpDir ∧ target = new) ∨
            source ∈ paths ∧
              target = unionTarget tmpDir source ∧
              (lastPiece source ≠ ".." →
                hostPlace tmpDir <+: hostPlace target)) := by
  rcases (childTrace_of_run hTrace).exists_carried trivial
    with ⟨planned, hPlanned, earlier, inner, rest, later,
      hCarried, rfl, rfl, _⟩
  rcases hCarried.exists_removal with
    rfl | ⟨new, paths, tmpDir, removed, rfl, hTempDir,
      hRemoved, hMount⟩
  · exact Or.inl hPlanned
  · refine Or.inr ⟨new, paths, tmpDir, removed, hPlanned,
      List.mem_append_right _ hTempDir,
      List.mem_append_left _ hRemoved, ?_⟩
    unfold unionMounts at hMount
    rcases List.mem_append.mp hMount with hMember | hDir
    · rcases List.mem_map.mp hMember with
        ⟨path, hPath, hEq⟩
      cases hEq
      exact Or.inr ⟨hPath, rfl,
        prefix_hostPlace_unionTarget tmpDir⟩
    · cases List.mem_singleton.mp hDir
      exact Or.inl ⟨rfl, rfl⟩

/- A member with a slash at its end is mounted and removed. -/
theorem removes_union_members_of_slash :
    ∃ new paths tmpDir removed,
      (new, .union paths) ∈
          (⟨[⟨"/mnt", .union ["/home/"]⟩]⟩ :
            Namespace).mountPlan ∧
        (.tempDir, .ok tmpDir) ∈
          ([(.unshare, .ok "/tmp/t"),
            (.tempDir, .ok "/tmp/t")] : HostTrace) ∧
        (.removeDirAll tmpDir, removed) ∈
          ([(.bindMount "/tmp/t" "/mnt", .ok "/tmp/t"),
            (.removeDirAll "/tmp/t", .ok "/tmp/t"),
            (.execvp ["ls"], .ok "/tmp/t")] : HostTrace) ∧
        (("/home/" = tmpDir ∧ "/tmp/t/" = new) ∨
          "/home/" ∈ paths ∧
            "/tmp/t/" = unionTarget tmpDir "/home/" ∧
            (lastPiece "/home/" ≠ ".." →
              hostPlace tmpDir <+: hostPlace "/tmp/t/")) := by
  have hTrace :
      (Asking.run (fun _ _ => .ok "/tmp/t") []
          (child ⟨[⟨"/mnt", .union ["/home/"]⟩]⟩ ["ls"])).2 =
        [(.unshare, .ok "/tmp/t"),
            (.tempDir, .ok "/tmp/t")] ++
          (.bindMount "/home/" "/tmp/t/", .ok "/tmp/t") ::
            [(.bindMount "/tmp/t" "/mnt", .ok "/tmp/t"),
              (.removeDirAll "/tmp/t", .ok "/tmp/t"),
              (.execvp ["ls"], .ok "/tmp/t")] := by
    decide +kernel
  exact (removes_union_members (fun _ _ => .ok "/tmp/t")
    ⟨[⟨"/mnt", .union ["/home/"]⟩]⟩ ["ls"]
    hTrace).resolve_left (by decide)

/-
  Where every address leads to one of the five servers, a
  share that the child mounts was probed before, and found
  whole by that probe.
-/
theorem mounts_whole_shares
    {Pid : Type}
    [DecidableEq Pid]
    (hasher : Hasher)
    (pids : PidText Pid)
    (servers : String → FileServer)
    (envs :
      (addr : String) → HostTrace →
        Nat → ((servers addr).service hasher pids).Env)
    {user : Option String}
    (hUser : (Call.attach 0 none (probeName user) "").Fits)
    (host : Oracle HostCall HostAnswer)
    (hHost :
      ∀ asked addr path s,
        host asked (.probe addr path) = .ok s →
          probeRemoteShare (fun _ => .ok Service.accepted)
            (((servers addr).service hasher pids).deliver
              (envs addr asked)) user addr path = .ok ())
    (ns : Namespace)
    (hPaths :
      ∀ target addr path,
        (target, .p9 addr path) ∈ ns.mountPlan →
          (Call.walk 0 1 (components path)).Fits)
    (cmdArgs : List String)
    {source target options : String}
    (hTrace :
      (Asking.run host [] (child ns cmdArgs)).2 =
        before ++
          (.mount9p source target options, answer) ::
            after) :
    ∃ addr path port asked s,
      (target, .p9 addr path) ∈ ns.mountPlan ∧
        parse9pAddr addr = .ok (source, port) ∧
        options = mountOptions port path ∧
        asked ++ [(.probe addr path, .ok s)] <+: before ∧
        FoundWhole (fun _ => .ok Service.accepted)
          (((servers addr).service hasher pids).deliver
            (envs addr asked)) user addr path := by
  rcases mounts_probed_shares host ns cmdArgs hTrace with
    ⟨addr, path, port, hPlanned, hAddr, hOptions, _,
      ⟨s, hProbe⟩, _⟩
  rcases List.append_of_mem hProbe with
    ⟨asked, between, rfl⟩
  have hAnswer : .ok s = host asked (.probe addr path) := by
    rw [List.append_assoc] at hTrace
    exact Asking.answer_of_run hTrace
  have hBefore :
      asked ++ [(HostCall.probe addr path, .ok s)] <+:
        asked ++ (.probe addr path, .ok s) :: between :=
    ⟨between, List.append_assoc ..⟩
  refine ⟨addr, path, port, asked, s, hPlanned, hAddr,
    hOptions, hBefore, ?_⟩
  exact Service.foundWhole_of_probe
    (FileServer.answersProbes hasher pids (servers addr))
    hUser (hPaths target addr path hPlanned)
    (hHost asked addr path s hAnswer.symm)

/- A host whose addresses all lead to a device server. -/
def deviceHost : Oracle HostCall HostAnswer
| _, .probe addr path =>
    match probeRemoteShare (fun _ => .ok Service.accepted)
        (PseudoServer.devfs.delivery
          (⟨id, Nat.repr⟩ : PidText Nat)
          (fun _ => idleAccess (fun _ => 0))) none addr path
      with
    | .ok _ => .ok ""
    | .error _ => .error ""
| _, _ => .ok ""

/- The null device is mounted, and was found whole. -/
theorem mounts_whole_shares_of_null :
    ∃ addr path port asked s,
      ("/mnt", .p9 addr path) ∈
          (⟨[⟨"/mnt", .p9 "h!9" "null"⟩]⟩ :
            Namespace).mountPlan ∧
        parse9pAddr addr = .ok ("h", port) ∧
        mountOptions 9 "null" = mountOptions port path ∧
        asked ++ [(.probe addr path, .ok s)] <+:
          ([(.unshare, .ok ""), (.probe "h!9" "null", .ok ""),
            (.pathExists "/mnt", .ok ""),
            (.isDir "/mnt", .ok "")] : HostTrace) ∧
        FoundWhole (fun _ => .ok Service.accepted)
          ((FileServer.devfs.service (fun _ _ => 0)
            (⟨id, Nat.repr⟩ : PidText Nat)).deliver
            (fun _ => idleAccess (fun _ => 0))) none addr
          path := by
  have hPlan :
      (⟨[⟨"/mnt", .p9 "h!9" "null"⟩]⟩ :
        Namespace).mountPlan =
          [("/mnt", .p9 "h!9" "null")] := by
    decide
  have hTrace :
      (Asking.run deviceHost []
          (child ⟨[⟨"/mnt", .p9 "h!9" "null"⟩]⟩ ["ls"])).2 =
        [(.unshare, .ok ""), (.probe "h!9" "null", .ok ""),
            (.pathExists "/mnt", .ok ""),
            (.isDir "/mnt", .ok "")] ++
          (.mount9p "h" "/mnt" (mountOptions 9 "null"),
              .ok "") ::
            [(.execvp ["ls"], .ok "")] := by
    decide +kernel
  refine mounts_whole_shares (fun _ _ => 0)
    (⟨id, Nat.repr⟩ : PidText Nat) (fun _ => .devfs)
    (fun _ _ _ => idleAccess (fun _ => 0))
    ⟨by decide, by decide⟩ deviceHost ?_ _ ?_ ["ls"] hTrace
  · intro asked addr path s hAnswer
    simp only [deviceHost] at hAnswer
    split at hAnswer
    · rename_i hProbe
      exact hProbe
    · cases hAnswer
  · intro target addr path hMem
    rw [hPlan] at hMem
    cases List.mem_singleton.mp hMem
    exact ⟨by decide, by decide⟩

end Planten
