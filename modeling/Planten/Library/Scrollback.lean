import Planten.Library.Grid
import Mathlib.Data.List.DropRight

/-
  Text that scrolls, and the grid that shows the end of it.

  A scrollback is every row that was begun, of which the last
  one is written to.  It wraps lazily: a row that is full is
  left only when another character comes.  A grid shows it
  where its rows are the last ones of the scrollback.

  Key definitions include:
    * `Scrollback`
    * `Scrollback.feed`
    * `Scrollback.feedAll`
    * `Scrollback.ShownBy`

  Key theorems include:
    * `Scrollback.ShownBy.newRow`
    * `Scrollback.ShownBy.write`
    * `Scrollback.length_rows_feedAll_line`
-/

------------------------------------------------------------
-- Scrollbacks
------------------------------------------------------------

structure Scrollback (α : Type) (w : Nat) where
  above : List (Vector α w)
  bottom : Vector α w
  column : Nat

namespace Scrollback

variable {α : Type} {w : Nat}

def rows
    (text : Scrollback α w) : List (Vector α w) :=
  text.above ++ [text.bottom]

def newRow
    (blank : α)
    (text : Scrollback α w) : Scrollback α w :=
  { above := text.rows,
    bottom := Vector.replicate w blank,
    column := 0 }

/- A character is written where the column is. -/
def write
    (a : α)
    (text : Scrollback α w) : Scrollback α w :=
  { text with
    bottom := text.bottom.setIfInBounds text.column a,
    column := text.column + 1 }

/-
  A newline begins a row, and so does a character for which
  the row has no place left.
-/
def feed
    (blank : α)
    (text : Scrollback α w) : Option α → Scrollback α w
| none => text.newRow blank
| some a =>
  if w ≤ text.column then
    (text.newRow blank).write a
  else
    text.write a

def feedAll
    (blank : α)
    (text : Scrollback α w)
    (keys : List (Option α)) : Scrollback α w :=
  keys.foldl (feed blank) text

/- The rows of a grid are the last ones of the scrollback. -/
structure ShownBy
    {h : Nat}
    (text : Scrollback α w)
    (grid : Grid α h w) : Prop where
  enough : h ≤ text.rows.length
  same : grid.toList = text.rows.rtake h

end Scrollback

------------------------------------------------------------
-- Rows
------------------------------------------------------------

namespace Scrollback

variable {α : Type} {w : Nat}
variable {blank : α} {text : Scrollback α w}

@[simp] theorem column_write
    (a : α) :
    (text.write a).column = text.column + 1 :=
  rfl

@[simp] theorem length_rows :
    text.rows.length = text.above.length + 1 := by
  simp [rows]

@[simp] theorem length_rows_newRow :
    (text.newRow blank).rows.length =
      text.rows.length + 1 := by
  simp [newRow]

@[simp] theorem length_rows_write
    (a : α) :
    (text.write a).rows.length = text.rows.length := by
  simp [write]

theorem feedAll_append
    (keys keys' : List (Option α)) :
    text.feedAll blank (keys ++ keys') =
      (text.feedAll blank keys).feedAll blank keys' := by
  exact List.foldl_append

/- Characters that fit into the row begin no other one. -/
theorem feedAll_of_fits
    {keys : List (Option α)}
    (hShown : none ∉ keys)
    (hFits : text.column + keys.length ≤ w) :
    (text.feedAll blank keys).rows.length =
        text.rows.length ∧
      (text.feedAll blank keys).column =
        text.column + keys.length := by
  induction keys generalizing text with
  | nil =>
      exact ⟨rfl, rfl⟩
  | cons key keys ih =>
      rcases not_or.mp (fun hIn =>
          hShown (List.mem_cons.mpr hIn)) with
        ⟨hKey, hRest⟩
      rcases Option.ne_none_iff_exists'.mp (Ne.symm hKey)
        with ⟨a, rfl⟩
      rw [List.length_cons] at hFits
      have hWrite :
          text.feed blank (some a) = text.write a := by
        rw [feed, if_neg (by omega)]
      have hNext := @ih (text.write a) hRest (by
        rw [column_write]
        omega)
      rw [feedAll, List.foldl_cons, hWrite]
      refine ⟨?_, ?_⟩
      · exact hNext.1.trans (length_rows_write a)
      · refine hNext.2.trans ?_
        rw [column_write, List.length_cons]
        omega

/-
  A line that fits into the row takes one row, even where it
  fills it: its newline leaves no empty row behind.
-/
theorem length_rows_feedAll_line
    {keys : List (Option α)}
    (hShown : none ∉ keys)
    (hFits : text.column + keys.length ≤ w) :
    (text.feedAll blank (keys ++ [none])).rows.length =
      text.rows.length + 1 := by
  rw [feedAll_append]
  change ((text.feedAll blank keys).newRow
    blank).rows.length = _
  rw [length_rows_newRow, (feedAll_of_fits hShown hFits).1]

end Scrollback

------------------------------------------------------------
-- Grids That Show a Scrollback
------------------------------------------------------------

namespace Scrollback

variable {α : Type} {h w : Nat}
variable {blank : α} {text : Scrollback α w}

/- The last rows but the first of them. -/
theorem tail_rtake
    {β : Type}
    {l : List β}
    {n : Nat}
    (hEnough : n + 1 ≤ l.length) :
    (l.rtake (n + 1)).tail = l.rtake n := by
  rw [List.rtake, List.rtake, List.tail_drop]
  congr 1
  omega

/- A grid that moved up shows the row that was begun. -/
theorem ShownBy.newRow
    {grid grid' : Grid α h w}
    (hHeight : 0 < h)
    (hShown : text.ShownBy grid)
    (hCells :
      ∀ i < h, ∀ j < w,
        grid'.cell? i j =
          if i + 1 < h then
            grid.cell? (i + 1) j
          else
            some blank) :
    (text.newRow blank).ShownBy grid' := by
  refine ⟨?_, ?_⟩
  · rw [length_rows_newRow]
    exact Nat.le_succ_of_le hShown.enough
  · rw [Grid.toList_of_shifted hHeight hCells, hShown.same]
    rcases Nat.exists_eq_add_one.mpr hHeight with ⟨n, rfl⟩
    rw [tail_rtake hShown.enough]
    exact (List.rtake_concat_succ text.rows n
      (Vector.replicate w blank)).symm

/- The bottom row of a grid is the one written to. -/
theorem ShownBy.write
    {grid : Grid α h w}
    (hHeight : 0 < h)
    (hShown : text.ShownBy grid)
    (a : α) :
    (text.write a).ShownBy
      (grid.set (h - 1)
        (grid[h - 1].setIfInBounds text.column a)) := by
  rcases Nat.exists_eq_add_one.mpr hHeight with ⟨n, rfl⟩
  have hAbove : (text.above.rtake n).length = n := by
    have hEnough := hShown.enough
    rw [length_rows] at hEnough
    rw [List.rtake, List.length_drop]
    omega
  have hRows :
      grid.toList = text.above.rtake n ++ [text.bottom] := by
    rw [hShown.same, rows, List.rtake_concat_succ]
  have hBottom : grid[n] = text.bottom := by
    have hLast :
        grid.toList[n]? = some text.bottom := by
      rw [hRows]
      simp [hAbove]
    simpa using hLast
  refine ⟨?_, ?_⟩
  · rw [length_rows_write]
    exact hShown.enough
  · change (grid.set n
      (grid[n].setIfInBounds text.column a)).toList =
        (text.above ++ [text.bottom.setIfInBounds
          text.column a]).rtake (n + 1)
    rw [Vector.toList_set, hRows, hBottom,
      List.rtake_concat_succ, List.set_append_right]
    · rw [hAbove, Nat.sub_self, List.set_cons_zero]
    · exact hAbove.le

end Scrollback
