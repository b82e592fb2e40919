import Planten.Library.Loops

/-
  Grids of cells, and scrolling them by a row.

  A grid is a vector of rows.  Copying every row over the one
  above it, cell by cell and in order, moves the rows up by
  one; and filling a row, cell by cell, makes it blank.

  Key definitions include:
    * `Grid`
    * `Grid.read`
    * `Grid.write`
    * `Grid.copyUp`
    * `Grid.fillRow`

  Key theorems include:
    * `Grid.copyUp_ok`
    * `Grid.fillRow_ok`
    * `Grid.scroll_ok`
    * `Grid.toList_of_shifted`
-/

------------------------------------------------------------
-- Grids
------------------------------------------------------------

abbrev Grid (α : Type) (h w : Nat) : Type :=
  Vector (Vector α w) h

namespace Grid

variable {α ε : Type} {h w : Nat}

/- The cell at a position, if it is in the grid. -/
def cell?
    (grid : Grid α h w)
    (row col : Nat) : Option α :=
  grid[row]?.bind (fun cells => cells[col]?)

def read
    (outside : ε)
    (grid : Grid α h w)
    (row col : Nat) : Except ε α :=
  match grid.cell? row col with
  | some a => .ok a
  | none => .error outside

def write
    (outside : ε)
    (grid : Grid α h w)
    (row col : Nat)
    (a : α) : Except ε (Grid α h w) :=
  if hRow : row < h then
    if col < w then
      .ok (grid.set row (grid[row].setIfInBounds col a))
    else
      .error outside
  else
    .error outside

/- Every row is copied over the one above it, from the top. -/
def copyUp
    (outside : ε)
    (grid : Grid α h w) : Except ε (Grid α h w) :=
  Loops.forRange 1 h (fun row grid =>
    Loops.forRange 0 w (fun col grid => do
      let a ← grid.read outside row col
      grid.write outside (row - 1) col a) grid) grid

/- A row is filled from the left. -/
def fillRow
    (outside : ε)
    (grid : Grid α h w)
    (row : Nat)
    (a : α) : Except ε (Grid α h w) :=
  Loops.forRange 0 w (fun col grid =>
    grid.write outside row col a) grid

end Grid

------------------------------------------------------------
-- Cells
------------------------------------------------------------

namespace Grid

variable {α ε : Type} {h w : Nat}
variable {grid : Grid α h w} {row col : Nat}
variable {outside : ε}

theorem cell?_eq_some
    (hRow : row < h)
    (hCol : col < w) :
    grid.cell? row col = some grid[row][col] := by
  simp [cell?, hRow, hCol]

theorem read_of_cell?
    {a : α}
    (hCell : grid.cell? row col = some a) :
    grid.read outside row col = .ok a := by
  rw [read, hCell]

/- A write in the grid changes one cell. -/
theorem write_ok
    (outside : ε)
    (grid : Grid α h w)
    (hRow : row < h)
    (hCol : col < w)
    (a : α) :
    ∃ grid',
      grid.write outside row col a = .ok grid' ∧
        ∀ i j,
          grid'.cell? i j =
            if i = row ∧ j = col then
              some a
            else
              grid.cell? i j := by
  refine ⟨grid.set row (grid[row].setIfInBounds col a),
    ?_, ?_⟩
  · rw [write, dif_pos hRow, if_pos hCol]
  · intro i j
    unfold cell?
    by_cases hI : i = row
    · subst hI
      rw [Vector.getElem?_set_self, Option.bind_some]
      by_cases hJ : j = col
      · subst hJ
        simp [hCol]
      · simp [hJ, Ne.symm hJ, hRow]
    · simp [hI, Ne.symm hI]

end Grid

------------------------------------------------------------
-- Scrolling
------------------------------------------------------------

namespace Grid

variable {α ε : Type} {h w : Nat}

/- One row is copied over the one above it. -/
theorem copyRow_ok
    (outside : ε)
    (grid : Grid α h w)
    {row : Nat}
    (hFirst : 1 ≤ row)
    (hRow : row < h) :
    ∃ grid',
      Loops.forRange 0 w (fun col grid => do
          let a ← grid.read outside row col
          grid.write outside (row - 1) col a) grid =
        .ok grid' ∧
      ∀ i < h, ∀ j < w,
        grid'.cell? i j =
          if i = row - 1 then
            grid.cell? row j
          else
            grid.cell? i j := by
  let P (n : Nat) (mid : Grid α h w) : Prop :=
    ∀ i < h, ∀ j < w,
      mid.cell? i j =
        if i = row - 1 ∧ j < n then
          grid.cell? row j
        else
          grid.cell? i j
  have hStep :
      ∀ col mid, 0 ≤ col → col < w → P col mid →
        ∃ mid',
          (do
            let a ← mid.read outside row col
            mid.write outside (row - 1) col a) =
              .ok mid' ∧ P (col + 1) mid' := by
    intro col mid _ hCol hMid
    -- the row that is copied has not been written to
    have hCell : mid.cell? row col = some grid[row][col] := by
      rw [hMid row hRow col hCol, if_neg (by omega),
        cell?_eq_some hRow hCol]
    rcases write_ok outside mid
        (Nat.lt_of_le_of_lt (Nat.sub_le row 1) hRow) hCol
        grid[row][col] with ⟨mid', hWrite, hCells⟩
    refine ⟨mid', ?_, ?_⟩
    · rw [read_of_cell? hCell]
      exact hWrite
    · intro i hI j hJ
      rw [hCells i j, hMid i hI j hJ]
      by_cases hHere : i = row - 1 ∧ j = col
      · rw [if_pos hHere, if_pos (by omega), hHere.2,
          cell?_eq_some hRow hCol]
      · rw [if_neg hHere]
        split_ifs <;> first | rfl | omega
  have hInit : P 0 grid := by
    intro i hI j hJ
    rw [if_neg (by omega)]
  rcases Loops.forRange_ok P (Nat.zero_le w) hStep hInit
    with ⟨grid', hLoop, hEnd⟩
  refine ⟨grid', hLoop, ?_⟩
  intro i hI j hJ
  rw [hEnd i hI j hJ]
  simp only [hJ, and_true]

/- In place, the rows move up by one; the last one stays. -/
theorem copyUp_ok
    (outside : ε)
    (grid : Grid α h w)
    (hHeight : 0 < h) :
    ∃ grid',
      grid.copyUp outside = .ok grid' ∧
        ∀ i < h, ∀ j < w,
          grid'.cell? i j =
            if i + 1 < h then
              grid.cell? (i + 1) j
            else
              grid.cell? i j := by
  let P (n : Nat) (mid : Grid α h w) : Prop :=
    ∀ i < h, ∀ j < w,
      mid.cell? i j =
        if i + 1 < n then
          grid.cell? (i + 1) j
        else
          grid.cell? i j
  have hStep :
      ∀ row mid, 1 ≤ row → row < h → P row mid →
        ∃ mid',
          Loops.forRange 0 w (fun col grid => do
            let a ← grid.read outside row col
            grid.write outside (row - 1) col a) mid =
              .ok mid' ∧ P (row + 1) mid' := by
    intro row mid hFirst hRow hMid
    rcases copyRow_ok outside mid hFirst hRow with
      ⟨mid', hLoop, hCells⟩
    refine ⟨mid', hLoop, ?_⟩
    intro i hI j hJ
    rw [hCells i hI j hJ]
    by_cases hAbove : i = row - 1
    · rw [if_pos hAbove, hMid row hRow j hJ,
        if_neg (by omega), if_pos (by omega), hAbove,
        Nat.sub_add_cancel hFirst]
    · rw [if_neg hAbove, hMid i hI j hJ]
      split_ifs <;> first | rfl | omega
  have hInit : P 1 grid := by
    intro i hI j hJ
    rw [if_neg (by omega)]
  exact Loops.forRange_ok P hHeight hStep hInit

/- A row is filled, and the others stay. -/
theorem fillRow_ok
    (outside : ε)
    (grid : Grid α h w)
    {row : Nat}
    (hRow : row < h)
    (a : α) :
    ∃ grid',
      grid.fillRow outside row a = .ok grid' ∧
        ∀ i < h, ∀ j < w,
          grid'.cell? i j =
            if i = row then
              some a
            else
              grid.cell? i j := by
  let P (n : Nat) (mid : Grid α h w) : Prop :=
    ∀ i < h, ∀ j < w,
      mid.cell? i j =
        if i = row ∧ j < n then
          some a
        else
          grid.cell? i j
  have hStep :
      ∀ col mid, 0 ≤ col → col < w → P col mid →
        ∃ mid', mid.write outside row col a = .ok mid' ∧
          P (col + 1) mid' := by
    intro col mid _ hCol hMid
    rcases write_ok outside mid hRow hCol a with
      ⟨mid', hWrite, hCells⟩
    refine ⟨mid', hWrite, ?_⟩
    intro i hI j hJ
    rw [hCells i j, hMid i hI j hJ]
    split_ifs <;> first | rfl | omega
  have hInit : P 0 grid := by
    intro i hI j hJ
    rw [if_neg (by omega)]
  rcases Loops.forRange_ok P (Nat.zero_le w) hStep hInit
    with ⟨grid', hLoop, hEnd⟩
  refine ⟨grid', hLoop, ?_⟩
  intro i hI j hJ
  rw [hEnd i hI j hJ]
  simp only [hJ, and_true]

/- The rows move up by one, above a blank one. -/
theorem scroll_ok
    (outside : ε)
    (grid : Grid α h w)
    (hHeight : 0 < h)
    (blank : α) :
    ∃ moved grid',
      grid.copyUp outside = .ok moved ∧
        moved.fillRow outside (h - 1) blank = .ok grid' ∧
          ∀ i < h, ∀ j < w,
            grid'.cell? i j =
              if i + 1 < h then
                grid.cell? (i + 1) j
              else
                some blank := by
  rcases copyUp_ok outside grid hHeight with
    ⟨moved, hMove, hMoved⟩
  rcases fillRow_ok outside moved
      (Nat.sub_lt hHeight Nat.one_pos) blank with
    ⟨grid', hFill, hFilled⟩
  refine ⟨moved, grid', hMove, hFill, ?_⟩
  intro i hI j hJ
  rw [hFilled i hI j hJ, hMoved i hI j hJ]
  split_ifs <;> first | rfl | omega

end Grid

------------------------------------------------------------
-- Rows
------------------------------------------------------------

namespace Grid

variable {α : Type} {h w : Nat}
variable {grid grid' : Grid α h w}

/-
  A grid whose rows moved up by one, above a blank row, has
  the rows of the old one but the first, and the blank row.
-/
theorem toList_of_shifted
    {blank : α}
    (hHeight : 0 < h)
    (hCells :
      ∀ i < h, ∀ j < w,
        grid'.cell? i j =
          if i + 1 < h then
            grid.cell? (i + 1) j
          else
            some blank) :
    grid'.toList =
      grid.toList.tail ++ [Vector.replicate w blank] := by
  apply List.ext_getElem
  · simp only [Vector.length_toList, List.length_append,
      List.length_tail, List.length_singleton]
    omega
  · intro i hI _
    rw [Vector.length_toList] at hI
    rw [Vector.getElem_toList]
    apply Vector.ext
    intro j hJ
    have hCell := hCells i hI j hJ
    rw [cell?_eq_some hI hJ] at hCell
    by_cases hLast : i + 1 < h
    · rw [if_pos hLast, cell?_eq_some hLast hJ,
        Option.some_inj] at hCell
      rw [List.getElem_append_left (by
        simp only [List.length_tail, Vector.length_toList]
        omega)]
      simpa using hCell
    · rw [if_neg hLast, Option.some_inj] at hCell
      rw [List.getElem_append_right (by
        simp only [List.length_tail, Vector.length_toList]
        omega)]
      simpa using hCell

end Grid
