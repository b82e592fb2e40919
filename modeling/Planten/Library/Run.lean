import Mathlib.Data.List.Basic

/-
  Runs of a deterministic transition function.

  Key definitions include:
    * `Run.final`
    * `Run.Always`

  Key theorems include:
    * `Run.final_append`
    * `Run.always_append`
    * `Run.exists_not_of_not_always`
    * `Run.invariant`
    * `Run.invariant_of_always`
    * `Run.always_of_always`
    * `Run.always_congr`
    * `Run.forall_prefix_iff_always`
-/

------------------------------------------------------------
-- Runs
------------------------------------------------------------

namespace Run

variable {σ ε : Type}

/- The state reached by a list of events. -/
def final
    (step : σ → ε → σ)
    (s : σ)
    (es : List ε) : σ :=
  es.foldl step s

/- Every event meets a condition in the state it finds. -/
def Always
    (step : σ → ε → σ)
    (P : σ → ε → Prop) :
    σ → List ε → Prop
| _, [] => True
| s, e :: es => P s e ∧ Always step P (step s e) es

instance Always.decidable
    (step : σ → ε → σ)
    (P : σ → ε → Prop)
    [∀ s e, Decidable (P s e)] :
    (s : σ) → (es : List ε) → Decidable (Always step P s es)
| _, [] => isTrue trivial
| s, e :: es =>
    have := Always.decidable step P (step s e) es
    inferInstanceAs
      (Decidable (P s e ∧ Always step P (step s e) es))

end Run

------------------------------------------------------------
-- Laws of Runs
------------------------------------------------------------

namespace Run

variable {σ ε : Type}
variable (step : σ → ε → σ)

@[simp] theorem final_cons
    (s : σ)
    (e : ε)
    (es : List ε) :
    final step s (e :: es) = final step (step s e) es :=
  rfl

theorem final_append
    (s : σ)
    (es fs : List ε) :
    final step s (es ++ fs) =
      final step (final step s es) fs :=
  List.foldl_append

theorem final_concat
    (s : σ)
    (es : List ε)
    (e : ε) :
    final step s (es ++ [e]) =
      step (final step s es) e :=
  final_append step s es [e]

/- A condition along a run is one along both of its parts. -/
theorem always_append
    {P : σ → ε → Prop}
    {s : σ}
    (es fs : List ε) :
    Always step P s (es ++ fs) ↔
      Always step P s es ∧
        Always step P (final step s es) fs := by
  induction es generalizing s with
  | nil =>
      exact (true_and _).symm.to_iff
  | cons e es ih =>
      exact (and_congr_right' ih).trans and_assoc.symm

/- A run in which a condition fails has a first such step. -/
theorem exists_not_of_not_always
    {P : σ → ε → Prop}
    {s : σ}
    {es : List ε}
    (hNot : ¬ Always step P s es) :
    ∃ pre e post,
      es = pre ++ e :: post ∧
        Always step P s pre ∧ ¬ P (final step s pre) e := by
  induction es generalizing s with
  | nil =>
      exact (hNot trivial).elim
  | cons e es ih =>
      by_cases hHere : P s e
      · have hLater : ¬ Always step P (step s e) es :=
          fun hTail => hNot ⟨hHere, hTail⟩
        rcases ih hLater with ⟨pre, e', post, rfl, hPre, hFail⟩
        exact ⟨e :: pre, e', post, rfl, ⟨hHere, hPre⟩, hFail⟩
      · exact ⟨[], e, es, rfl, trivial, hHere⟩

/- What every step keeps holds in every state of a run. -/
theorem invariant
    {Inv : σ → Prop}
    (hStep : ∀ s e, Inv s → Inv (step s e))
    {s : σ}
    (hInit : Inv s)
    (es : List ε) :
    Inv (final step s es) := by
  induction es generalizing s with
  | nil =>
      exact hInit
  | cons e es ih =>
      exact ih (hStep s e hInit)

/-
  What every step that meets a condition keeps holds at the
  end of a run whose steps all meet it.
-/
theorem invariant_of_always
    {P : σ → ε → Prop}
    {Inv : σ → Prop}
    (hStep : ∀ s e, Inv s → P s e → Inv (step s e))
    {s : σ}
    {es : List ε}
    (hInit : Inv s)
    (hAlways : Always step P s es) :
    Inv (final step s es) := by
  induction es generalizing s with
  | nil =>
      exact hInit
  | cons e es ih =>
      exact ih (hStep s e hInit hAlways.1) hAlways.2

/- Such an invariant may be used in every step of the run. -/
theorem always_of_always
    {P Q : σ → ε → Prop}
    {Inv : σ → Prop}
    (hStep : ∀ s e, Inv s → P s e → Inv (step s e))
    (hImp : ∀ s e, Inv s → P s e → Q s e)
    {s : σ}
    {es : List ε}
    (hInit : Inv s)
    (hAlways : Always step P s es) :
    Always step Q s es := by
  induction es generalizing s with
  | nil =>
      trivial
  | cons e es ih =>
      exact ⟨hImp s e hInit hAlways.1,
        ih (hStep s e hInit hAlways.1) hAlways.2⟩

/- Conditions that agree hold along the same runs. -/
theorem always_congr
    {P Q : σ → ε → Prop}
    (hAgree : ∀ s e, P s e ↔ Q s e)
    (s : σ)
    (es : List ε) :
    Always step P s es ↔ Always step Q s es := by
  induction es generalizing s with
  | nil =>
      exact Iff.rfl
  | cons e es ih =>
      exact and_congr (hAgree s e) (ih (step s e))

/-
  Where a property is kept by the steps that meet their need
  and by no others, it holds all along a run just when every
  step of the run meets its need.
-/
theorem forall_prefix_iff_always
    {P : σ → ε → Prop}
    {Inv Kept : σ → Prop}
    (hStep : ∀ s e, Inv s → P s e → Inv (step s e))
    (hKept : ∀ s, Inv s → Kept s)
    (hNeeds : ∀ s e, Inv s → Kept (step s e) → P s e)
    {s : σ}
    (hInit : Inv s)
    (es : List ε) :
    (∀ pre post, es = pre ++ post →
      Kept (final step s pre)) ↔ Always step P s es := by
  constructor
  · intro hAll
    induction es generalizing s with
    | nil =>
        trivial
    | cons e es ih =>
        have hHere : P s e :=
          hNeeds s e hInit (hAll [e] es rfl)
        refine ⟨hHere, ih (hStep s e hInit hHere) ?_⟩
        intro pre post hSplit
        exact hAll (e :: pre) post
          (congrArg (List.cons e) hSplit)
  · intro hAlways pre post hSplit
    rw [hSplit, always_append] at hAlways
    apply hKept
    exact invariant_of_always step hStep hInit hAlways.1

end Run
