import Mathlib.Data.List.Basic

/-
  Counted loops whose body may fail.

  Key definitions include:
    * `Loops.forRange`

  Key theorems include:
    * `Loops.forRange_ok`
-/

------------------------------------------------------------
-- Counted Loops
------------------------------------------------------------

namespace Loops

variable {ε σ : Type}

/- The body is run for every number from `start` to `stop`. -/
def forRange
    (start stop : Nat)
    (body : Nat → σ → Except ε σ)
    (s : σ) : Except ε σ :=
  (List.range' start (stop - start)).foldlM
    (fun s i => body i s) s

/-
  A loop whose body keeps an invariant of the counter does
  not fail, and ends with the invariant at its bound.
-/
theorem forRange_ok
    {start stop : Nat}
    {body : Nat → σ → Except ε σ}
    (P : Nat → σ → Prop)
    (hBounds : start ≤ stop)
    (hStep :
      ∀ i s, start ≤ i → i < stop → P i s →
        ∃ s', body i s = .ok s' ∧ P (i + 1) s')
    {s : σ}
    (hInit : P start s) :
    ∃ s', forRange start stop body s = .ok s' ∧
      P stop s' := by
  unfold forRange
  rcases Nat.exists_eq_add_of_le hBounds with ⟨n, rfl⟩
  rw [Nat.add_sub_cancel_left]
  clear hBounds
  induction n generalizing start s with
  | zero =>
      exact ⟨s, rfl, hInit⟩
  | succ n ih =>
      rcases hStep start s (Nat.le_refl start) (by omega)
        hInit with ⟨s', hBody, hNext⟩
      have hLater :
          ∀ i s, start + 1 ≤ i → i < start + 1 + n →
            P i s → ∃ s', body i s = .ok s' ∧ P (i + 1) s' := by
        intro i s hStart hStop hP
        exact hStep i s (by omega) (by omega) hP
      rcases ih hNext hLater with ⟨final, hLoop, hEnd⟩
      refine ⟨final, ?_, ?_⟩
      · rw [List.range'_succ, List.foldlM_cons, hBody]
        exact hLoop
      · rw [Nat.add_comm n 1, ← Nat.add_assoc]
        exact hEnd

end Loops
