import Mathlib.Data.List.Basic

/-
  Prefix-free codes: printed values that can be told apart
  from their first symbols on, whatever follows them.

  Key definitions include:
    * `PrefixFree`

  Key theorems include:
    * `PrefixFree.of_read`
    * `PrefixFree.prepend`
    * `PrefixFree.comp`
    * `PrefixFree.flatMap`
-/

------------------------------------------------------------
-- Prefix-Free Codes
------------------------------------------------------------

/- A printed value is read off the front in one way. -/
def PrefixFree
    {α σ : Type}
    (f : α → List σ) : Prop :=
  ∀ a b r s, f a ++ r = f b ++ s → a = b ∧ r = s

namespace PrefixFree

variable {α β σ : Type}
variable {f : α → List σ}

theorem injective
    (hFree : PrefixFree f) :
    Function.Injective f := by
  intro a b hEq
  have hSame : f a ++ [] = f b ++ [] := by
    rw [hEq]
  exact (hFree a b [] [] hSame).1

/- A value that can be read from any text it begins. -/
theorem of_read
    {read : List σ → Option α}
    (hRead : ∀ a rest, read (f a ++ rest) = some a) :
    PrefixFree f := by
  intro a b r s hEq
  have hSame : some a = some b := by
    rw [← hRead a r, ← hRead b s, hEq]
  cases hSame
  exact ⟨rfl, List.append_cancel_left hEq⟩

/- The same symbols in front of every value change nothing. -/
theorem prepend
    (hFree : PrefixFree f)
    (front : List σ) :
    PrefixFree (fun a => front ++ f a) := by
  intro a b r s hEq
  rw [List.append_assoc, List.append_assoc] at hEq
  exact hFree a b r s (List.append_cancel_left hEq)

theorem comp
    (hFree : PrefixFree f)
    {g : β → α}
    (hInj : Function.Injective g) :
    PrefixFree (fun b => f (g b)) := by
  intro a b r s hEq
  rcases hFree _ _ r s hEq with ⟨hSame, hRest⟩
  exact ⟨hInj hSame, hRest⟩

/-
  A list of values ends at a mark that begins differently
  from each of them.
-/
theorem flatMap
    {stop : List σ}
    (hFree : PrefixFree f)
    (hStop : ∀ a r s, f a ++ r ≠ stop ++ s) :
    PrefixFree (fun l : List α =>
      l.flatMap f ++ stop) := by
  intro l
  induction l with
  | nil =>
      intro l' r s hEq
      cases l' with
      | nil => exact ⟨rfl, List.append_cancel_left hEq⟩
      | cons b bs =>
          simp only [List.flatMap_nil, List.flatMap_cons,
            List.nil_append, List.append_assoc] at hEq
          exact absurd hEq.symm (hStop b _ r)
  | cons a l ih =>
      intro l' r s hEq
      cases l' with
      | nil =>
          simp only [List.flatMap_nil, List.flatMap_cons,
            List.nil_append, List.append_assoc] at hEq
          exact absurd hEq (hStop a _ s)
      | cons b bs =>
          simp only [List.flatMap_cons,
            List.append_assoc] at hEq
          rcases hFree a b _ _ hEq with ⟨hSame, hRest⟩
          rw [← List.append_assoc, ← List.append_assoc]
            at hRest
          rcases ih bs r s hRest with ⟨hTail, hEnd⟩
          exact ⟨by rw [hSame, hTail], hEnd⟩

end PrefixFree
