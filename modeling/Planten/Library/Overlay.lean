import Mathlib.Data.List.Basic

/-
  A buffer written over a list.

  The law of a write says what is at every position after it:
  the buffer, what was there before, or a filler in the gap
  that a write past the end leaves.  Two writes that do not
  meet may be swapped.

  Key definitions include:
    * `Overlays`

  Key theorems include:
    * `Overlays.getElem?_eq`
    * `Overlays.take_drop`
    * `Overlays.comm`
-/

------------------------------------------------------------
-- Overlays
------------------------------------------------------------

variable {α : Type}

/-
  `data'` is `data` with `buf` written over it from `start`
  on, and `zero` in the gap before `start`.
-/
structure Overlays
    (zero : α)
    (data : List α)
    (start : Nat)
    (buf data' : List α) : Prop where
  length :
    data'.length = max data.length (start + buf.length)
  written :
    ∀ i < buf.length, data'[start + i]? = buf[i]?
  kept :
    ∀ i < data.length,
      i < start ∨ start + buf.length ≤ i →
        data'[i]? = data[i]?
  gap :
    ∀ i, data.length ≤ i → i < start →
      data'[i]? = some zero

namespace Overlays

variable {zero : α} {data buf data' : List α} {start : Nat}

/- What is at a position after the write. -/
theorem getElem?_eq
    (hOver : Overlays zero data start buf data')
    (i : Nat) :
    data'[i]? =
      if start ≤ i ∧ i < start + buf.length then
        buf[i - start]?
      else if data.length ≤ i ∧ i < start then
        some zero
      else
        data[i]? := by
  split_ifs with hHere hGap
  · have hEntry := hOver.written (i - start) (by omega)
    rwa [Nat.add_sub_cancel' hHere.1] at hEntry
  · exact hOver.gap i hGap.1 hGap.2
  · by_cases hInside : i < data.length
    · exact hOver.kept i hInside (by omega)
    · have hLength := hOver.length
      rw [List.getElem?_eq_none (by omega),
        List.getElem?_eq_none (by omega)]

/- The range that is written holds the buffer. -/
theorem take_drop
    (hOver : Overlays zero data start buf data') :
    (data'.drop start).take buf.length = buf := by
  apply List.ext_getElem?
  intro i
  by_cases hInside : i < buf.length
  · rw [List.getElem?_take_of_lt hInside,
      List.getElem?_drop, hOver.written i hInside]
  · rw [List.getElem?_take_eq_none (Nat.not_lt.mp hInside),
      List.getElem?_eq_none (Nat.not_lt.mp hInside)]

/- Writes to disjoint ranges may be swapped. -/
theorem comm
    {start₁ start₂ : Nat}
    {buf₁ buf₂ mid₁ mid₂ end₁ end₂ : List α}
    (hDisjoint :
      start₁ + buf₁.length ≤ start₂ ∨
        start₂ + buf₂.length ≤ start₁)
    (hFirst : Overlays zero data start₁ buf₁ mid₁)
    (hThen : Overlays zero mid₁ start₂ buf₂ end₁)
    (hSecond : Overlays zero data start₂ buf₂ mid₂)
    (hLast : Overlays zero mid₂ start₁ buf₁ end₂) :
    end₁ = end₂ := by
  apply List.ext_getElem?
  intro i
  have hMid₁ := hFirst.length
  have hMid₂ := hSecond.length
  rw [hThen.getElem?_eq, hLast.getElem?_eq,
    hFirst.getElem?_eq, hSecond.getElem?_eq]
  split_ifs <;> first | rfl | omega

end Overlays
