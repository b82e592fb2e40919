import Mathlib.Data.List.Basic

/-
  Reading data window by window.

  Each read starts where the one before it ended, until one
  gives nothing.  Where the reads give windows of the data,
  whatever their sizes, this ends and gives the data.

  Key definitions include:
    * `Paging.readOn`

  Key theorems include:
    * `Paging.readOn_of_windows`
-/

------------------------------------------------------------
-- Reading On
------------------------------------------------------------

namespace Paging

variable {α ε : Type}

/-
  Read on from an offset, the `i`-th read first, until one
  gives nothing, within a number of reads.
-/
def readOn
    (read : Nat → Nat → Except ε (List α)) :
    Nat → Nat → Nat → Except ε (Option (List α))
| 0, _, _ => .ok none
| fuel + 1, i, offset =>
    match read i offset with
    | .error e => .error e
    | .ok [] => .ok (some [])
    | .ok (a :: chunk) =>
        (readOn read fuel (i + 1)
          (offset + (a :: chunk).length)).map
            (Option.map (a :: chunk ++ ·))

/- The window and what is behind it. -/
theorem window_append_drop
    (data : List α)
    (offset count : Nat) :
    (data.drop offset).take count ++
        data.drop
          (offset +
            ((data.drop offset).take count).length) =
      data.drop offset := by
  rw [← List.drop_drop]
  exact List.prefix_iff_eq_append.mp
    (List.take_prefix count (data.drop offset))

/-
  Every read that gives something brings the end nearer, so
  one more read than there are items is enough.
-/
theorem readOn_of_windows
    {read : Nat → Nat → Except ε (List α)}
    {data : List α}
    {counts : Nat → Nat}
    (hWindows :
      ∀ i, ∀ offset ≤ data.length,
        read i offset =
          .ok ((data.drop offset).take (counts i)))
    (hPositive : ∀ i, 0 < counts i)
    {fuel offset : Nat}
    (hInside : offset ≤ data.length)
    (hFuel : data.length - offset < fuel)
    (i : Nat) :
    readOn read fuel i offset =
      .ok (some (data.drop offset)) := by
  induction fuel generalizing i offset with
  | zero =>
      exact absurd hFuel (Nat.not_lt_zero _)
  | succ fuel ih =>
      have hSome := hPositive i
      have hWhole :=
        window_append_drop data offset (counts i)
      have hLength :
          ((data.drop offset).take (counts i)).length =
            min (counts i) (data.length - offset) := by
        rw [List.length_take, List.length_drop]
      rw [readOn, hWindows i offset hInside]
      cases hChunk : (data.drop offset).take (counts i) with
      | nil =>
          rw [hChunk, List.length_nil] at hLength
          rw [List.drop_of_length_le (by omega)]
      | cons a chunk =>
          rw [hChunk] at hWhole hLength
          rw [List.length_cons] at hLength
          simp only
          rw [ih (by rw [List.length_cons]; omega)
            (by rw [List.length_cons]; omega)]
          rw [Except.map, Option.map_some, hWhole]

end Paging
