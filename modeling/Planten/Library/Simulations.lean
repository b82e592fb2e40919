import Planten.Library.Run
import Mathlib.Data.List.Forall2

/-
  Two runs side by side.

  A simulation relates the states of two machines, and a
  step on both keeps them related, with related outputs.  A
  coupling relates two runs of one machine on events that
  differ.  An erasure compares a run with the one in which
  only some of the events take place; when events are marked
  these are told by their places.

  Key definitions include:
    * `Run.outputs`
    * `Run.outputsOf`
    * `Run.Simulation`
    * `Run.Coupling`
    * `Run.Erasure`
    * `Run.unmarked`

  Key theorems include:
    * `Run.Simulation.final`
    * `Run.Simulation.outputs`, `Run.Simulation.outputsOf`
    * `Run.Coupling.final`, `Run.Coupling.outputs`
    * `Run.Erasure.final`, `Run.Erasure.outputs`
-/

------------------------------------------------------------
-- Outputs
------------------------------------------------------------

namespace Run

variable {σ ε ο : Type}

/- The outputs of the events of a run, in order. -/
def outputs
    (step : σ → ε → σ)
    (out : σ → ε → ο) :
    σ → List ε → List ο
| _, [] => []
| s, e :: es => out s e :: outputs step out (step s e) es

/- The outputs of those events of a run that are picked. -/
def outputsOf
    (picked : ε → Bool)
    (step : σ → ε → σ)
    (out : σ → ε → ο) :
    σ → List ε → List ο
| _, [] => []
| s, e :: es =>
    if picked e then
      out s e :: outputsOf picked step out (step s e) es
    else
      outputsOf picked step out (step s e) es

theorem outputs_concat
    (step : σ → ε → σ)
    (out : σ → ε → ο)
    (s : σ)
    (es : List ε)
    (e : ε) :
    outputs step out s (es ++ [e]) =
      outputs step out s es ++ [out (final step s es) e] := by
  induction es generalizing s with
  | nil =>
      rfl
  | cons e' es ih =>
      rw [List.cons_append, outputs, ih, outputs, final_cons,
        List.cons_append]

theorem outputsOf_append
    (picked : ε → Bool)
    (step : σ → ε → σ)
    (out : σ → ε → ο)
    (s : σ)
    (es fs : List ε) :
    outputsOf picked step out s (es ++ fs) =
      outputsOf picked step out s es ++
        outputsOf picked step out (final step s es) fs := by
  induction es generalizing s with
  | nil =>
      rfl
  | cons e es ih =>
      rw [List.cons_append, outputsOf, outputsOf, ih,
        final_cons]
      split
      · rfl
      · rfl

theorem outputsOf_of_all
    {picked : ε → Bool}
    (step : σ → ε → σ)
    (out : σ → ε → ο)
    (s : σ)
    {es : List ε}
    (hAll : ∀ e ∈ es, picked e = true) :
    outputsOf picked step out s es =
      outputs step out s es := by
  induction es generalizing s with
  | nil =>
      rfl
  | cons e es ih =>
      rw [outputsOf, outputs,
        if_pos (hAll e (List.mem_cons_self ..)),
        ih _ (fun e' hMem =>
          hAll e' (List.mem_cons_of_mem e hMem))]

theorem outputsOf_of_none
    {picked : ε → Bool}
    (step : σ → ε → σ)
    (out : σ → ε → ο)
    (s : σ)
    {es : List ε}
    (hNone : ∀ e ∈ es, picked e = false) :
    outputsOf picked step out s es = [] := by
  induction es generalizing s with
  | nil =>
      rfl
  | cons e es ih =>
      rw [outputsOf,
        hNone e (List.mem_cons_self ..),
        ih _ (fun e' hMem =>
          hNone e' (List.mem_cons_of_mem e hMem))]
      rfl

end Run

------------------------------------------------------------
-- Simulations
------------------------------------------------------------

namespace Run

variable {σ τ ε ο ο' : Type}
variable {step : σ → ε → σ} {out : σ → ε → ο}
variable {step' : τ → ε → τ} {out' : τ → ε → ο'}

/-
  Related states step to related states, with related
  outputs, where the event meets a condition in the first.
-/
structure Simulation
    (step : σ → ε → σ)
    (out : σ → ε → ο)
    (step' : τ → ε → τ)
    (out' : τ → ε → ο')
    (Ok : σ → ε → Prop)
    (R : σ → τ → Prop)
    (Q : ο → ο' → Prop) : Prop where
  step :
    ∀ s t e, R s t → Ok s e → R (step s e) (step' t e)
  out :
    ∀ s t e, R s t → Ok s e → Q (out s e) (out' t e)

namespace Simulation

variable {Ok : σ → ε → Prop} {R : σ → τ → Prop}
variable {Q : ο → ο' → Prop}

theorem final
    (hSim : Simulation step out step' out' Ok R Q)
    {s : σ}
    {t : τ}
    {es : List ε}
    (hInit : R s t)
    (hOk : Always step Ok s es) :
    R (Run.final step s es) (Run.final step' t es) := by
  induction es generalizing s t with
  | nil =>
      exact hInit
  | cons e es ih =>
      exact ih (hSim.step s t e hInit hOk.1) hOk.2

theorem outputs
    (hSim : Simulation step out step' out' Ok R Q)
    {s : σ}
    {t : τ}
    {es : List ε}
    (hInit : R s t)
    (hOk : Always step Ok s es) :
    List.Forall₂ Q (Run.outputs step out s es)
      (Run.outputs step' out' t es) := by
  induction es generalizing s t with
  | nil =>
      exact .nil
  | cons e es ih =>
      exact .cons (hSim.out s t e hInit hOk.1)
        (ih (hSim.step s t e hInit hOk.1) hOk.2)

/- Equal outputs are equal for the picked events. -/
theorem outputsOf
    {out' : τ → ε → ο}
    (hSim :
      Simulation step out step' out' Ok R
        (fun o o' => o = o'))
    (picked : ε → Bool)
    {s : σ}
    {t : τ}
    {es : List ε}
    (hInit : R s t)
    (hOk : Always step Ok s es) :
    Run.outputsOf picked step out s es =
      Run.outputsOf picked step' out' t es := by
  induction es generalizing s t with
  | nil =>
      rfl
  | cons e es ih =>
      rw [Run.outputsOf, Run.outputsOf,
        hSim.out s t e hInit hOk.1,
        ih (hSim.step s t e hInit hOk.1) hOk.2]

end Simulation

/- The condition that every event meets. -/
theorem always_trivial
    (step : σ → ε → σ)
    (s : σ)
    (es : List ε) :
    Always step (fun _ _ => True) s es := by
  induction es generalizing s with
  | nil =>
      trivial
  | cons e es ih =>
      exact ⟨trivial, ih (step s e)⟩

end Run

------------------------------------------------------------
-- Couplings
------------------------------------------------------------

namespace Run

variable {σ ε ο : Type}
variable {step : σ → ε → σ} {out : σ → ε → ο}

/-
  Two runs of one machine on related events: they go through
  related states, with related outputs.
-/
structure Coupling
    (step : σ → ε → σ)
    (out : σ → ε → ο)
    (R : σ → σ → Prop)
    (E : ε → ε → Prop)
    (Q : ο → ο → Prop) : Prop where
  step :
    ∀ s t e e', R s t → E e e' → R (step s e) (step t e')
  out :
    ∀ s t e e', R s t → E e e' → Q (out s e) (out t e')

namespace Coupling

variable {R : σ → σ → Prop} {E : ε → ε → Prop}
variable {Q : ο → ο → Prop}

theorem final
    (hCoupling : Coupling step out R E Q)
    {s t : σ}
    {es es' : List ε}
    (hInit : R s t)
    (hEvents : List.Forall₂ E es es') :
    R (Run.final step s es) (Run.final step t es') := by
  induction hEvents generalizing s t with
  | nil =>
      exact hInit
  | cons hEvent _ ih =>
      exact ih (hCoupling.step s t _ _ hInit hEvent)

theorem outputs
    (hCoupling : Coupling step out R E Q)
    {s t : σ}
    {es es' : List ε}
    (hInit : R s t)
    (hEvents : List.Forall₂ E es es') :
    List.Forall₂ Q (Run.outputs step out s es)
      (Run.outputs step out t es') := by
  induction hEvents generalizing s t with
  | nil =>
      exact .nil
  | cons hEvent _ ih =>
      exact .cons (hCoupling.out s t _ _ hInit hEvent)
        (ih (hCoupling.step s t _ _ hInit hEvent))

end Coupling

end Run

------------------------------------------------------------
-- Erasures
------------------------------------------------------------

namespace Run

variable {σ ε ο : Type}
variable {step : σ → ε → σ} {out : σ → ε → ο}

/-
  A relation between a run with all events and one with the
  picked events alone.  A picked event has the same output
  in related states, and no event undoes the relation.
-/
structure Erasure
    (picked : ε → Bool)
    (step : σ → ε → σ)
    (out : σ → ε → ο)
    (Ok : σ → ε → Prop)
    (R : σ → σ → Prop) : Prop where
  kept :
    ∀ s t e, picked e = true → R s t → Ok s e →
      R (step s e) (step t e) ∧ out s e = out t e
  erased :
    ∀ s t e, picked e = false → R s t → Ok s e →
      R (step s e) t

namespace Erasure

variable {picked : ε → Bool} {Ok : σ → ε → Prop}
variable {R : σ → σ → Prop}

theorem final
    (hErase : Erasure picked step out Ok R)
    {s t : σ}
    {es : List ε}
    (hInit : R s t)
    (hOk : Always step Ok s es) :
    R (Run.final step s es)
      (Run.final step t (es.filter picked)) := by
  induction es generalizing s t with
  | nil =>
      exact hInit
  | cons e es ih =>
      cases hPicked : picked e with
      | true =>
          rw [List.filter_cons_of_pos hPicked]
          exact ih (hErase.kept s t e hPicked hInit hOk.1).1
            hOk.2
      | false =>
          rw [List.filter_cons_of_neg (by simp [hPicked])]
          exact ih (hErase.erased s t e hPicked hInit hOk.1)
            hOk.2

/- The picked events have the outputs they have alone. -/
theorem outputs
    (hErase : Erasure picked step out Ok R)
    {s t : σ}
    {es : List ε}
    (hInit : R s t)
    (hOk : Always step Ok s es) :
    outputsOf picked step out s es =
      Run.outputs step out t (es.filter picked) := by
  induction es generalizing s t with
  | nil =>
      rfl
  | cons e es ih =>
      cases hPicked : picked e with
      | true =>
          rcases hErase.kept s t e hPicked hInit hOk.1 with
            ⟨hNext, hOut⟩
          rw [List.filter_cons_of_pos hPicked, outputsOf,
            if_pos hPicked, hOut, ih hNext hOk.2]
          rfl
      | false =>
          rw [List.filter_cons_of_neg (by simp [hPicked]),
            outputsOf, if_neg (by simp [hPicked])]
          exact ih (hErase.erased s t e hPicked hInit hOk.1)
            hOk.2

end Erasure

end Run

------------------------------------------------------------
-- Marked Events
------------------------------------------------------------

namespace Run

variable {σ ε ο : Type}

/- Do with a marked event what is done with the event. -/
def unmarked
    {α : Type}
    (f : σ → ε → α) : σ → ε × Bool → α :=
  fun s e => f s e.1

theorem final_unmarked
    (step : σ → ε → σ)
    (s : σ)
    (es : List (ε × Bool)) :
    final (unmarked step) s es =
      final step s (es.map Prod.fst) := by
  induction es generalizing s with
  | nil =>
      rfl
  | cons e es ih =>
      exact ih (step s e.1)

theorem outputs_unmarked
    (step : σ → ε → σ)
    (out : σ → ε → ο)
    (s : σ)
    (es : List (ε × Bool)) :
    outputs (unmarked step) (unmarked out) s es =
      outputs step out s (es.map Prod.fst) := by
  induction es generalizing s with
  | nil =>
      rfl
  | cons e es ih =>
      exact congrArg (out s e.1 :: ·) (ih (step s e.1))

end Run
