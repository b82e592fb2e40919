import Mathlib.Logic.Function.Basic

/-
  Writers that share one file of items.

  A writer loads the file into a copy of its own, appends to
  the copy, and saves the whole copy back over the file.
  Nothing orders the writers, so what others save after a
  writer last touched the file is unseen by it, and the next
  save of that writer drops it.

  Key definitions include:
    * `SharedFile.Access`
    * `SharedFile.step`
    * `SharedFile.unseen`
    * `SharedFile.Informed`
    * `SharedFile.Kept`

  Key theorems include:
    * `SharedFile.Covered.step`
    * `SharedFile.informed_of_kept`
-/

------------------------------------------------------------
-- Accesses
------------------------------------------------------------

namespace SharedFile

variable {ι α : Type}

/- What a writer does to the file. -/
inductive Access (ι α : Type) where
| load (writer : ι)
| save (writer : ι) (adds : List α)

namespace Access

def writer : Access ι α → ι
| load i => i
| save i _ => i

/- The items an access is the first to write. -/
def adds : Access ι α → List α
| load _ => []
| save _ items => items

end Access

/- The items some accesses, the latest first, have saved. -/
def saved (log : List (Access ι α)) : List α :=
  log.flatMap Access.adds

variable [DecidableEq ι]

/- The items saved since a writer last touched the file. -/
def unseen
    (i : ι)
    (log : List (Access ι α)) : List α :=
  saved (log.takeWhile (fun access => access.writer ≠ i))

end SharedFile

------------------------------------------------------------
-- Laws of Accesses
------------------------------------------------------------

namespace SharedFile

variable {ι α : Type}

variable [DecidableEq ι]

theorem unseen_of_other
    {i : ι}
    (access : Access ι α)
    (hOther : access.writer ≠ i)
    (log : List (Access ι α)) :
    unseen i (access :: log) =
      access.adds ++ unseen i log := by
  rw [unseen, List.takeWhile_cons_of_pos]
  · rfl
  · simpa using hOther

theorem saved_of_unseen
    {i : ι}
    {log : List (Access ι α)}
    {a : α}
    (hUnseen : a ∈ unseen i log) :
    a ∈ saved log := by
  rcases List.mem_flatMap.mp hUnseen with
    ⟨access, hMem, hAdds⟩
  apply List.mem_flatMap.mpr
  exact ⟨access,
    (List.takeWhile_sublist _).subset hMem, hAdds⟩

end SharedFile

------------------------------------------------------------
-- The File and the Copies
------------------------------------------------------------

namespace SharedFile

variable {ι α : Type}

/- The file, each writer's copy, and the accesses so far. -/
structure State (ι α : Type) where
  stored : List α
  copy : ι → List α
  log : List (Access ι α)

variable [DecidableEq ι]

/- A save replaces the file by the copy and its additions. -/
def step
    (s : State ι α)
    (access : Access ι α) : State ι α :=
  match access with
  | .load i =>
      ⟨s.stored, Function.update s.copy i s.stored,
        .load i :: s.log⟩
  | .save i adds =>
      ⟨s.copy i ++ adds,
        Function.update s.copy i (s.copy i ++ adds),
        .save i adds :: s.log⟩

/- A save writes what its writer did not see others save. -/
def Informed
    (s : State ι α) : Access ι α → Prop
| .load _ => True
| .save i adds =>
    ∀ a ∈ unseen i s.log, a ∈ s.copy i ++ adds

/- Nothing that was saved is missing from the file. -/
def Kept (s : State ι α) : Prop :=
  ∀ a ∈ saved s.log, a ∈ s.stored

/- A writer holds or has not seen whatever was saved. -/
structure Covered (s : State ι α) : Prop where
  kept : Kept s
  known :
    ∀ i, ∀ a ∈ saved s.log,
      a ∈ s.copy i ∨ a ∈ unseen i s.log

end SharedFile

------------------------------------------------------------
-- Steps of Informed Writers
------------------------------------------------------------

namespace SharedFile

variable {ι α : Type} [DecidableEq ι]
variable {s : State ι α}

theorem covered_of_fresh
    (hFresh : s.log = []) :
    Covered s where
  kept := by
    intro a hSaved
    rw [hFresh] at hSaved
    exact absurd hSaved List.not_mem_nil
  known := by
    intro i a hSaved
    rw [hFresh] at hSaved
    exact absurd hSaved List.not_mem_nil

theorem Covered.load
    (hCovered : Covered s)
    (i : ι) :
    Covered (SharedFile.step s (.load i)) where
  kept := hCovered.kept
  known := by
    intro j a hSaved
    by_cases hOwn : i = j
    · left
      subst hOwn
      simpa [SharedFile.step] using hCovered.kept a hSaved
    · have hUnseen :
          unseen j (.load i :: s.log) = unseen j s.log :=
        unseen_of_other (.load i) hOwn s.log
      rw [SharedFile.step, hUnseen]
      simpa [Function.update_of_ne (Ne.symm hOwn)]
        using hCovered.known j a hSaved

/-
  Whatever was saved before is held by the writer, or unseen
  by it and then written by an informed save.
-/
theorem Covered.mem_of_informed
    {i : ι}
    {adds : List α}
    (hCovered : Covered s)
    (hInformed : Informed s (.save i adds))
    {a : α}
    (hSaved : a ∈ adds ++ saved s.log) :
    a ∈ s.copy i ++ adds := by
  rcases List.mem_append.mp hSaved with hNew | hOld
  · exact List.mem_append_right _ hNew
  · rcases hCovered.known i a hOld with hHeld | hUnseen
    · exact List.mem_append_left _ hHeld
    · exact hInformed a hUnseen

theorem Covered.save
    {i : ι}
    {adds : List α}
    (hCovered : Covered s)
    (hInformed : Informed s (.save i adds)) :
    Covered (SharedFile.step s (.save i adds)) where
  kept := by
    intro a hSaved
    exact hCovered.mem_of_informed hInformed hSaved
  known := by
    intro j a hSaved
    by_cases hOwn : i = j
    · left
      subst hOwn
      simpa [SharedFile.step] using
        hCovered.mem_of_informed hInformed hSaved
    · have hUnseen :
          unseen j (.save i adds :: s.log) =
            adds ++ unseen j s.log :=
        unseen_of_other (.save i adds) hOwn s.log
      rw [SharedFile.step, hUnseen]
      rcases List.mem_append.mp hSaved with hNew | hOld
      · right
        exact List.mem_append_left _ hNew
      · rcases hCovered.known j a hOld with hHeld | hUnseen
        · left
          simpa [Function.update_of_ne (Ne.symm hOwn)]
            using hHeld
        · right
          exact List.mem_append_right _ hUnseen

/- An informed access keeps every saved item in the file. -/
theorem Covered.step
    {access : Access ι α}
    (hCovered : Covered s)
    (hInformed : Informed s access) :
    Covered (SharedFile.step s access) := by
  cases access with
  | load i => exact hCovered.load i
  | save i adds => exact hCovered.save hInformed

/- Only an informed access does. -/
theorem informed_of_kept
    {access : Access ι α}
    (hKept : Kept (step s access)) :
    Informed s access := by
  cases access with
  | load i => trivial
  | save i adds =>
      intro a hUnseen
      apply hKept
      exact List.mem_append_right _
        (saved_of_unseen hUnseen)

end SharedFile
