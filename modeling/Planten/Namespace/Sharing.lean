import Planten.Library.Run
import Planten.Library.SharedFile
import Planten.Namespace.Helpers
import Planten.Namespace.Json

/-
  Any number of helpers on one stored namespace.

  Each step of a schedule lets one process load or save the
  file.  The documentation promises that the tools do not
  stomp on each other; but nothing orders a load of one
  process against the saves of others, so a save drops what
  the others saved after its process last read or wrote the
  file, except for what the process has by itself.

  Key definitions include:
    * `System`
    * `System.step`
    * `System.Kept`
    * `System.Informed`
    * `NoUpdateLost`

  Key theorems include:
    * `System.shared_of_save`
    * `System.Sound.step`
    * `noUpdateLost_iff`
    * `updateLost_of_twoBinds`
-/

------------------------------------------------------------
-- Processes
------------------------------------------------------------

namespace Planten

/- What a process last loaded or saved, and what it is at. -/
structure RunningHelper where
  held : List MountEntry
  script : Script

/-
  The stored file, the processes, and the accesses so far,
  the latest first.
-/
structure System (ι : Type) where
  file : Option Bytes
  processes : ι → RunningHelper
  log : List (SharedFile.Access ι MountEntry)

namespace System

variable {ι : Type}

/- No helper has started on the file. -/
def start
    (helpers : ι → Helper)
    (file : Option Bytes) : System ι :=
  ⟨file, fun i => ⟨[], (helpers i).main⟩, []⟩

/- The entries found in the file. -/
def contents
    (serde : Serde)
    (sys : System ι) : List MountEntry :=
  (Namespace.loadOrNew serde sys.file).mounts

/- The entries that some process added and has saved. -/
def saved (sys : System ι) : List MountEntry :=
  SharedFile.saved sys.log

def Finished
    (sys : System ι)
    (i : ι) : Prop :=
  (sys.processes i).script = .done

/- Every entry that was added and saved is in the file. -/
def Kept
    (serde : Serde)
    (sys : System ι) : Prop :=
  ∀ e ∈ sys.saved, e ∈ sys.contents serde

variable [DecidableEq ι]

/- A process makes its next access to the file. -/
def step
    (serde : Serde)
    (sys : System ι)
    (i : ι) : System ι :=
  match (sys.processes i).script with
  | .done => sys
  | .load next =>
      ⟨sys.file,
        Function.update sys.processes i
          ⟨sys.contents serde,
            next (Namespace.loadFromFile serde sys.file)⟩,
        .load i :: sys.log⟩
  | .save ns next =>
      ⟨some (ns.saveToFile serde),
        Function.update sys.processes i ⟨ns.mounts, next⟩,
        .save i (ns.mounts.drop
          (sys.processes i).held.length) :: sys.log⟩

/-
  A process that saves has, or adds itself, each entry that
  the others saved since it last loaded or saved the file.
-/
def Informed
    (sys : System ι)
    (i : ι) : Prop :=
  match (sys.processes i).script with
  | .save ns _ =>
      ∀ e ∈ SharedFile.unseen i sys.log, e ∈ ns.mounts
  | _ => True

end System

/-
  Once an entry is saved, it stays in the file; and the
  final file has every entry of every helper that is done.
-/
def NoUpdateLost
    {ι : Type}
    [DecidableEq ι]
    (serde : Serde)
    (helpers : ι → Helper)
    (file : Option Bytes)
    (schedule : List ι) : Prop :=
  let after :=
    Run.final (System.step serde)
      (System.start helpers file)
  (∀ pre post, schedule = pre ++ post →
    (after pre).Kept serde) ∧
  ∀ i, (after schedule).Finished i →
    ∀ e ∈ (helpers i).entries,
      e ∈ (after schedule).contents serde

end Planten

------------------------------------------------------------
-- The Shared File
------------------------------------------------------------

namespace Planten

namespace System

variable {ι : Type} [DecidableEq ι]
variable {serde : Serde}
variable {sys : System ι}

/- The system as writers sharing a file of entries. -/
def shared
    (serde : Serde)
    (sys : System ι) : SharedFile.State ι MountEntry :=
  ⟨sys.contents serde, fun i => (sys.processes i).held,
    sys.log⟩

theorem step_of_done
    {i : ι}
    (hScript : (sys.processes i).script = .done) :
    sys.step serde i = sys := by
  unfold step
  rw [hScript]

theorem step_of_load
    {i : ι}
    {next : Option Namespace → Script}
    (hScript : (sys.processes i).script = .load next) :
    sys.step serde i =
      ⟨sys.file,
        Function.update sys.processes i
          ⟨sys.contents serde,
            next (Namespace.loadFromFile serde sys.file)⟩,
        .load i :: sys.log⟩ := by
  unfold step
  rw [hScript]

/- What a process saves is what it holds and what it adds. -/
theorem step_of_save
    {i : ι}
    {ns : Namespace}
    {next : Script}
    {adds : List MountEntry}
    (hScript : (sys.processes i).script = .save ns next)
    (hMounts : ns.mounts = (sys.processes i).held ++ adds) :
    sys.step serde i =
      ⟨some (ns.saveToFile serde),
        Function.update sys.processes i ⟨ns.mounts, next⟩,
        .save i adds :: sys.log⟩ := by
  have hAdds :
      ns.mounts.drop (sys.processes i).held.length =
        adds := by
    rw [hMounts, List.drop_left]
  unfold step
  rw [hScript]
  dsimp only
  rw [hAdds]

theorem held_update
    (processes : ι → RunningHelper)
    (i : ι)
    (process : RunningHelper) :
    (fun j =>
        (Function.update processes i process j).held) =
      Function.update (fun j => (processes j).held) i
        process.held := by
  funext j
  by_cases hOwn : j = i
  · subst hOwn
    simp
  · simp [Function.update_of_ne hOwn]

theorem shared_of_load
    {i : ι}
    {next : Option Namespace → Script}
    (hScript : (sys.processes i).script = .load next) :
    (sys.step serde i).shared serde =
      SharedFile.step (sys.shared serde) (.load i) := by
  rw [step_of_load hScript, shared, held_update]
  rfl

theorem shared_of_save
    {i : ι}
    {ns : Namespace}
    {next : Script}
    {adds : List MountEntry}
    (hReads : serde.Reads)
    (hScript : (sys.processes i).script = .save ns next)
    (hMounts : ns.mounts = (sys.processes i).held ++ adds) :
    (sys.step serde i).shared serde =
      SharedFile.step (sys.shared serde)
        (.save i adds) := by
  rw [step_of_save hScript hMounts, shared, held_update,
    contents, Namespace.loadOrNew_saveToFile hReads,
    hMounts]
  rfl

end System

end Planten

------------------------------------------------------------
-- Deliveries
------------------------------------------------------------

namespace Planten

namespace System

variable {ι : Type} [DecidableEq ι]
variable {serde : Serde}
variable {sys : System ι}
variable {helpers : ι → Helper}

/-
  What a process has left delivers each entry it is asked
  to add that it has not saved.
-/
def Sound
    (helpers : ι → Helper)
    (sys : System ι) : Prop :=
  ∀ i, ∃ later,
    (sys.processes i).script.Delivers
        (sys.processes i).held later ∧
      ∀ e ∈ (helpers i).entries,
        e ∈ sys.saved ∨ e ∈ later

omit [DecidableEq ι] in
theorem sound_start
    (helpers : ι → Helper)
    (file : Option Bytes) :
    Sound helpers (start helpers file) := by
  intro i
  refine ⟨_, (helpers i).delivers, ?_⟩
  intro e hMem
  exact Or.inr hMem

/- One process moves on, and the others stay as they are. -/
theorem Sound.update
    {i : ι}
    {process : RunningHelper}
    {file : Option Bytes}
    {access : SharedFile.Access ι MountEntry}
    (hSound : Sound helpers sys)
    (hMoved :
      ∃ later,
        process.script.Delivers process.held later ∧
          ∀ e ∈ (helpers i).entries,
            e ∈ access.adds ++ sys.saved ∨ e ∈ later) :
    Sound helpers
      ⟨file, Function.update sys.processes i process,
        access :: sys.log⟩ := by
  intro j
  by_cases hOwn : j = i
  · subst hOwn
    simp only [Function.update_self]
    exact hMoved
  · rcases hSound j with ⟨later, hDelivers, hEntries⟩
    refine ⟨later, ?_, ?_⟩
    · simpa [Function.update_of_ne hOwn] using hDelivers
    · intro e hMem
      rcases hEntries e hMem with hSaved | hLater
      · left
        exact List.mem_append_right _ hSaved
      · exact Or.inr hLater

theorem Sound.step
    (hSound : Sound helpers sys)
    (i : ι) :
    Sound helpers (sys.step serde i) := by
  rcases hSound i with ⟨later, hDelivers, hEntries⟩
  cases hScript : (sys.processes i).script with
  | done =>
      rw [step_of_done hScript]
      exact hSound
  | load next =>
      rw [hScript] at hDelivers
      rw [step_of_load hScript]
      apply hSound.update
      exact ⟨later, hDelivers _, hEntries⟩
  | save ns next =>
      rw [hScript] at hDelivers
      rcases hDelivers with
        ⟨adds, rest, hMounts, hNext, hSaves⟩
      rw [step_of_save hScript hMounts]
      apply hSound.update
      refine ⟨rest, hNext, ?_⟩
      intro e hMem
      rcases hEntries e hMem with hSaved | hLater
      · left
        exact List.mem_append_right _ hSaved
      · rcases hSaves e hLater with hAdds | hRest
        · left
          exact List.mem_append_left _ hAdds
        · exact Or.inr hRest

/- A process that is done has saved all it was to add. -/
omit [DecidableEq ι] in
theorem Sound.saved_of_finished
    {i : ι}
    {e : MountEntry}
    (hSound : Sound helpers sys)
    (hFinished : sys.Finished i)
    (hEntry : e ∈ (helpers i).entries) :
    e ∈ sys.saved := by
  rcases hSound i with ⟨later, hDelivers, hEntries⟩
  rw [hFinished] at hDelivers
  rcases hEntries e hEntry with hSaved | hLater
  · exact hSaved
  · rw [hDelivers] at hLater
    exact absurd hLater List.not_mem_nil

end System

end Planten

------------------------------------------------------------
-- Lost Updates
------------------------------------------------------------

namespace Planten

namespace System

variable {ι : Type} [DecidableEq ι]
variable {serde : Serde}
variable {sys : System ι}
variable {helpers : ι → Helper}

/- An informed process keeps every saved entry in the file. -/
theorem covered_step
    {i : ι}
    (hReads : serde.Reads)
    (hSound : Sound helpers sys)
    (hCovered : SharedFile.Covered (sys.shared serde))
    (hInformed : sys.Informed i) :
    SharedFile.Covered
      ((sys.step serde i).shared serde) := by
  rcases hSound i with ⟨later, hDelivers, hEntries⟩
  cases hScript : (sys.processes i).script with
  | done =>
      rw [step_of_done hScript]
      exact hCovered
  | load next =>
      rw [shared_of_load hScript]
      exact hCovered.step True.intro
  | save ns next =>
      rw [hScript] at hDelivers
      rcases hDelivers with ⟨adds, rest, hMounts, _, _⟩
      rw [shared_of_save hReads hScript hMounts]
      apply hCovered.step
      intro e hUnseen
      rw [Informed, hScript] at hInformed
      have hSaved := hInformed e hUnseen
      rw [hMounts] at hSaved
      exact hSaved

/- Only an informed process does. -/
theorem informed_of_kept
    {i : ι}
    (hReads : serde.Reads)
    (hSound : Sound helpers sys)
    (hKept : (sys.step serde i).Kept serde) :
    sys.Informed i := by
  rcases hSound i with ⟨later, hDelivers, hEntries⟩
  cases hScript : (sys.processes i).script with
  | done =>
      rw [Informed, hScript]
      trivial
  | load next =>
      rw [Informed, hScript]
      trivial
  | save ns next =>
      rw [hScript] at hDelivers
      rcases hDelivers with ⟨adds, rest, hMounts, _, _⟩
      have hShared :
          SharedFile.Kept
            ((sys.step serde i).shared serde) :=
        hKept
      rw [shared_of_save hReads hScript hMounts] at hShared
      rw [Informed, hScript]
      intro e hUnseen
      rw [hMounts]
      exact SharedFile.informed_of_kept hShared e hUnseen

end System

/-
  No update is lost in just the runs in which every process
  that saves is informed of what the others saved.
-/
theorem noUpdateLost_iff
    {ι : Type}
    [DecidableEq ι]
    {serde : Serde}
    (hReads : serde.Reads)
    (helpers : ι → Helper)
    (file : Option Bytes)
    (schedule : List ι) :
    NoUpdateLost serde helpers file schedule ↔
      Run.Always (System.step serde) System.Informed
        (System.start helpers file) schedule := by
  let Inv (sys : System ι) : Prop :=
    sys.Sound helpers ∧
      SharedFile.Covered (sys.shared serde)
  have hInit : Inv (System.start helpers file) :=
    ⟨System.sound_start helpers file,
      SharedFile.covered_of_fresh rfl⟩
  have hAlong :=
    Run.forall_prefix_iff_always (System.step serde)
      (fun sys i (hInv : Inv sys) hInformed =>
        (⟨hInv.1.step i, System.covered_step hReads hInv.1
          hInv.2 hInformed⟩ : Inv (sys.step serde i)))
      (fun sys hInv => hInv.2.kept)
      (fun sys i hInv hKept =>
        System.informed_of_kept hReads hInv.1 hKept)
      hInit schedule
  have hSound :=
    Run.invariant (System.step serde)
      (fun sys i (hSound : sys.Sound helpers) =>
        hSound.step i)
      hInit.1 schedule
  constructor
  · intro hNoUpdateLost
    exact hAlong.mp hNoUpdateLost.1
  · intro hInformed
    have hKept := hAlong.mpr hInformed
    refine ⟨hKept, ?_⟩
    intro i hFinished e hEntry
    apply hKept schedule [] (List.append_nil _).symm
    exact hSound.saved_of_finished hFinished hEntry

/- Two processes that bind one target each. -/
def twoBinds : Bool → Helper
| false => .bind ["bind", "/a", "/x"]
| true => .bind ["bind", "/b", "/y"]

/- Nothing is lost where one runs after the other. -/
theorem noUpdateLost_of_turns :
    NoUpdateLost serdeJson twoBinds none
      [false, false, true, true] := by
  apply (noUpdateLost_iff reads_serdeJson twoBinds none
    [false, false, true, true]).mpr
  refine ⟨True.intro, ?_, True.intro, ?_, True.intro⟩
  · intro e hUnseen
    exact absurd hUnseen List.not_mem_nil
  · intro e hUnseen
    exact absurd hUnseen List.not_mem_nil

/-
  Both load the missing file before either saves it, and the
  second save drops what the first one added.
-/
theorem updateLost_of_twoBinds :
    ¬ NoUpdateLost serdeJson twoBinds none
      [false, true, false, true] := by
  intro hNoUpdateLost
  have hKept := hNoUpdateLost.1
    [false, true, false, true] [] rfl
  have hLost :=
    hKept ⟨"/a", .bind "/x"⟩
      (List.mem_append_right _ (List.mem_cons_self ..))
  have hFile :
      (Run.final (System.step serdeJson)
          (System.start twoBinds none)
          [false, true, false, true]).contents serdeJson =
        [⟨"/b", .bind "/y"⟩] :=
    congrArg Namespace.mounts
      (Namespace.loadOrNew_saveToFile reads_serdeJson
        (Namespace.new.bind "/b" "/y"))
  rw [hFile] at hLost
  exact absurd hLost (by decide)

end Planten
