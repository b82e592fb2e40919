import Planten.Runtime
import Planten.Library.Scrollback

/-
  The writer of the kernel's VGA text buffer.

  Bytes are written to the bottom row of the buffer, and the
  rows move up by one at a newline and where the bottom row
  is full.  The buffer is the end of a scrollback.

  Key definitions include:
    * `Writer.writeByte`
    * `Writer.writeString`
    * `Writer.scrollback`

  Key theorems include:
    * `Writer.newLine_mirrors`
    * `Writer.writeStringByte_mirrors`
    * `Writer.writeBytes_mirrors`
    * `Writer.writeString_scrolls`
-/

------------------------------------------------------------
-- The Writer
------------------------------------------------------------

namespace Planten

structure ScreenChar where
  asciiCharacter : UInt8
  colorCode : UInt8
deriving DecidableEq

def BUFFER_HEIGHT : Nat := 25

def BUFFER_WIDTH : Nat := 80

/- The one way in which a writer can stop. -/
inductive VgaPanic where
| indexOutOfBounds
deriving DecidableEq

structure Writer where
  columnPosition : Nat
  colorCode : UInt8
  buffer : Grid ScreenChar BUFFER_HEIGHT BUFFER_WIDTH

namespace Writer

/- The blank of `clear_row`. -/
def blank (writer : Writer) : ScreenChar :=
  { asciiCharacter := 0x20,
    colorCode := writer.colorCode }

def clearRow
    (row : Nat)
    (writer : Writer) : Except VgaPanic Writer := do
  let buffer ←
    writer.buffer.fillRow .indexOutOfBounds row writer.blank
  return { writer with buffer }

def newLine
    (writer : Writer) : Except VgaPanic Writer := do
  let buffer ← writer.buffer.copyUp .indexOutOfBounds
  let writer ←
    clearRow (BUFFER_HEIGHT - 1) { writer with buffer }
  return { writer with columnPosition := 0 }

/- A byte that is no newline. -/
def writeChar
    (byte : UInt8)
    (writer : Writer) : Except VgaPanic Writer := do
  let writer ←
    if writer.columnPosition ≥ BUFFER_WIDTH then
      writer.newLine
    else
      pure writer
  let row := BUFFER_HEIGHT - 1
  let col := writer.columnPosition
  let buffer ←
    writer.buffer.write .indexOutOfBounds row col
      { asciiCharacter := byte,
        colorCode := writer.colorCode }
  return {
    writer with
    buffer,
    columnPosition := writer.columnPosition + 1 }

def writeByte
    (byte : UInt8)
    (writer : Writer) : Except VgaPanic Writer :=
  if byte = 0x0a then
    writer.newLine
  else
    writer.writeChar byte

/- Printable ASCII or a newline stays as it is. -/
def writeStringByte
    (byte : UInt8)
    (writer : Writer) : Except VgaPanic Writer :=
  if 0x20 ≤ byte ∧ byte ≤ 0x7e ∨ byte = 0x0a then
    writer.writeByte byte
  else
    writer.writeByte 0xfe

def writeBytes
    (bytes : Bytes)
    (writer : Writer) : Except VgaPanic Writer :=
  bytes.foldlM (fun writer byte =>
    writer.writeStringByte byte) writer

def writeString
    (s : String)
    (writer : Writer) : Except VgaPanic Writer :=
  writer.writeBytes (asBytes s)

end Writer

end Planten

------------------------------------------------------------
-- The Scrollback
------------------------------------------------------------

namespace Planten

namespace Writer

/- What the buffer shows is all that was written so far. -/
def scrollback
    (writer : Writer) :
    Scrollback ScreenChar BUFFER_WIDTH :=
  { above := writer.buffer.toList.dropLast,
    bottom := writer.buffer[BUFFER_HEIGHT - 1],
    column := writer.columnPosition }

/- A byte as it is shown, unless it is a newline. -/
def key
    (writer : Writer)
    (byte : UInt8) : Option ScreenChar :=
  if byte = 0x0a then
    none
  else
    some {
      asciiCharacter :=
        if 0x20 ≤ byte ∧ byte ≤ 0x7e then byte else 0xfe,
      colorCode := writer.colorCode }

/- The text after a string, with nothing scrolled away. -/
def scrollbackAfter
    (writer : Writer)
    (s : String) : Scrollback ScreenChar BUFFER_WIDTH :=
  writer.scrollback.feedAll writer.blank
    ((asBytes s).map writer.key)

/- A writer whose buffer shows the end of the text. -/
structure Mirrors
    (writer : Writer)
    (text : Scrollback ScreenChar BUFFER_WIDTH) : Prop where
  shown : text.ShownBy writer.buffer
  column : writer.columnPosition = text.column
  inside : text.column ≤ BUFFER_WIDTH

/- At first, the text is what the buffer shows. -/
theorem rows_scrollback
    (writer : Writer) :
    writer.scrollback.rows = writer.buffer.toList := by
  have hLength :
      writer.buffer.toList.length = BUFFER_HEIGHT :=
    writer.buffer.length_toList
  have hNonempty : writer.buffer.toList ≠ [] := by
    apply List.ne_nil_of_length_pos
    rw [hLength]
    exact Nat.succ_pos (BUFFER_HEIGHT - 1)
  have hLast :
      writer.buffer.toList.getLast hNonempty =
        writer.buffer[BUFFER_HEIGHT - 1] := by
    simp [List.getLast_eq_getElem]
  rw [Scrollback.rows, scrollback, ← hLast,
    List.dropLast_append_getLast]

theorem scrollback_mirrors
    {writer : Writer}
    (hColumn : writer.columnPosition ≤ BUFFER_WIDTH) :
    writer.Mirrors writer.scrollback := by
  have hLength :
      writer.buffer.toList.length = BUFFER_HEIGHT :=
    writer.buffer.length_toList
  refine ⟨⟨?_, ?_⟩, rfl, hColumn⟩
  · rw [rows_scrollback, hLength]
  · rw [rows_scrollback, List.rtake, hLength, Nat.sub_self,
      List.drop_zero]

end Writer

end Planten

------------------------------------------------------------
-- Steps
------------------------------------------------------------

namespace Planten

namespace Writer

variable {writer : Writer}
variable {text : Scrollback ScreenChar BUFFER_WIDTH}

/- The rows move up, and the bottom one is blank. -/
theorem newLine_mirrors
    (hMirrors : writer.Mirrors text) :
    ∃ writer',
      writer.newLine = .ok writer' ∧
        writer'.colorCode = writer.colorCode ∧
        writer'.Mirrors (text.newRow writer.blank) := by
  have hHeight : 0 < BUFFER_HEIGHT := by
    decide
  rcases Grid.scroll_ok VgaPanic.indexOutOfBounds
      writer.buffer hHeight writer.blank with
    ⟨moved, cleared, hMove, hClear, hCells⟩
  refine ⟨{ writer with
    buffer := cleared, columnPosition := 0 }, ?_, rfl, ?_⟩
  · have hRow :
        clearRow (BUFFER_HEIGHT - 1)
            { writer with buffer := moved } =
          .ok { writer with buffer := cleared } := by
      rw [clearRow]
      change (moved.fillRow VgaPanic.indexOutOfBounds
        (BUFFER_HEIGHT - 1) writer.blank >>= _) = _
      rw [hClear]
      rfl
    simp only [newLine, hMove, hRow, bind, Except.bind]
    rfl
  · exact ⟨hMirrors.shown.newRow hHeight hCells, rfl,
      Nat.zero_le _⟩

/- A byte goes to the bottom row where there is place. -/
theorem write_mirrors
    (hMirrors : writer.Mirrors text)
    (hPlace : text.column < BUFFER_WIDTH)
    (a : ScreenChar) :
    ∃ buffer,
      writer.buffer.write VgaPanic.indexOutOfBounds
          (BUFFER_HEIGHT - 1) writer.columnPosition a =
        .ok buffer ∧
      Mirrors
        { writer with
          buffer,
          columnPosition := writer.columnPosition + 1 }
        (text.write a) := by
  have hHeight : 0 < BUFFER_HEIGHT := by
    decide
  refine ⟨writer.buffer.set (BUFFER_HEIGHT - 1)
    (writer.buffer[BUFFER_HEIGHT - 1].setIfInBounds
      text.column a), ?_, ?_⟩
  · rw [Grid.write, dif_pos (by decide), hMirrors.column,
      if_pos hPlace]
  · refine ⟨hMirrors.shown.write hHeight a, ?_, hPlace⟩
    exact congrArg (· + 1) hMirrors.column

theorem writeChar_mirrors
    (hMirrors : writer.Mirrors text)
    (byte : UInt8) :
    ∃ writer',
      writer.writeChar byte = .ok writer' ∧
        writer'.colorCode = writer.colorCode ∧
        writer'.Mirrors
          (text.feed writer.blank
            (some {
              asciiCharacter := byte,
              colorCode := writer.colorCode })) := by
  rw [writeChar, hMirrors.column]
  by_cases hFull : BUFFER_WIDTH ≤ text.column
  · rcases newLine_mirrors hMirrors with
      ⟨next, hNext, hColor, hNextMirrors⟩
    rcases write_mirrors hNextMirrors
        (Nat.succ_pos (BUFFER_WIDTH - 1))
        { asciiCharacter := byte,
          colorCode := next.colorCode } with
      ⟨buffer, hWrite, hWritten⟩
    refine ⟨{ next with
      buffer,
      columnPosition := next.columnPosition + 1 },
      ?_, hColor, ?_⟩
    · rw [if_pos hFull, hNext]
      change (next.buffer.write _ _ _ _ >>= _) = _
      rw [hWrite]
      rfl
    · rw [Scrollback.feed, if_pos hFull, ← hColor]
      exact hWritten
  · rcases write_mirrors hMirrors
        (Nat.lt_of_not_le hFull)
        { asciiCharacter := byte,
          colorCode := writer.colorCode } with
      ⟨buffer, hWrite, hWritten⟩
    refine ⟨{ writer with
      buffer,
      columnPosition := writer.columnPosition + 1 },
      ?_, rfl, ?_⟩
    · rw [if_neg hFull]
      change (writer.buffer.write _ _ _ _ >>= _) = _
      rw [hWrite]
      rfl
    · rw [Scrollback.feed, if_neg hFull]
      exact hWritten

/- One byte of a string is one key of the text. -/
theorem writeStringByte_mirrors
    (hMirrors : writer.Mirrors text)
    (byte : UInt8) :
    ∃ writer',
      writer.writeStringByte byte = .ok writer' ∧
        writer'.colorCode = writer.colorCode ∧
        writer'.Mirrors
          (text.feed writer.blank (writer.key byte)) := by
  unfold writeStringByte key
  by_cases hNewline : byte = 0x0a
  · rw [if_pos (Or.inr hNewline), if_pos hNewline,
      writeByte, if_pos hNewline]
    exact newLine_mirrors hMirrors
  · rw [if_neg hNewline]
    by_cases hPrintable : 0x20 ≤ byte ∧ byte ≤ 0x7e
    · rw [if_pos (Or.inl hPrintable), if_pos hPrintable,
        writeByte, if_neg hNewline]
      exact writeChar_mirrors hMirrors byte
    · rw [if_neg (not_or.mpr ⟨hPrintable, hNewline⟩),
        if_neg hPrintable, writeByte, if_neg (by decide)]
      exact writeChar_mirrors hMirrors 0xfe

end Writer

end Planten

------------------------------------------------------------
-- Strings
------------------------------------------------------------

namespace Planten

namespace Writer

variable {writer : Writer}
variable {text : Scrollback ScreenChar BUFFER_WIDTH}

/- What is written is what the text gets, byte by byte. -/
theorem writeBytes_mirrors
    (hMirrors : writer.Mirrors text)
    (bytes : Bytes) :
    ∃ writer',
      writer.writeBytes bytes = .ok writer' ∧
        writer'.colorCode = writer.colorCode ∧
        writer'.Mirrors
          (text.feedAll writer.blank
            (bytes.map writer.key)) := by
  induction bytes generalizing writer text with
  | nil =>
      exact ⟨writer, rfl, rfl, hMirrors⟩
  | cons byte bytes ih =>
      rcases writeStringByte_mirrors hMirrors byte with
        ⟨next, hNext, hColor, hNextMirrors⟩
      rcases ih hNextMirrors with
        ⟨final, hFinal, hFinalColor, hFinalMirrors⟩
      -- the colour decides the blanks and the keys
      have hBlank : next.blank = writer.blank := by
        rw [blank, hColor, blank]
      have hKey : next.key = writer.key := by
        funext byte
        rw [key, hColor, key]
      rw [hBlank, hKey] at hFinalMirrors
      refine ⟨final, ?_, hFinalColor.trans hColor,
        hFinalMirrors⟩
      rw [writeBytes, List.foldlM_cons, hNext]
      exact hFinal

theorem writeBytes_append
    (bytes bytes' : Bytes) :
    writer.writeBytes (bytes ++ bytes') =
      writer.writeBytes bytes >>= writeBytes bytes' := by
  exact List.foldlM_append

theorem asBytes_append
    (s t : String) :
    asBytes (s ++ t) = asBytes s ++ asBytes t := by
  simp [asBytes]

/- A line that fits into the row takes one row. -/
theorem length_rows_line
    {line : String}
    (hLine : 0x0a ∉ asBytes line)
    (hFits :
      writer.columnPosition + line.utf8ByteSize ≤
        BUFFER_WIDTH) :
    (writer.scrollbackAfter (line ++ "\n")).rows.length =
      writer.buffer.toList.length + 1 := by
  have hNewline :
      (asBytes "\n").map writer.key = [none] := by
    rfl
  have hShown : none ∉ (asBytes line).map writer.key := by
    intro hIn
    rcases List.mem_map.mp hIn with ⟨byte, hByte, hKey⟩
    rw [key] at hKey
    split_ifs at hKey with hIs
    exact hLine (hIs ▸ hByte)
  rw [scrollbackAfter, asBytes_append, List.map_append,
    hNewline,
    Scrollback.length_rows_feedAll_line hShown (by
      rw [List.length_map, length_asBytes]
      exact hFits),
    rows_scrollback]

/-
  The buffer is a window on the end of the text: no write is
  outside of it, and it shows the last rows of what was there
  and of what is written.
-/
theorem writeString_scrolls
    (writer : Writer)
    (hColumn : writer.columnPosition ≤ BUFFER_WIDTH)
    (s : String) :
    (∃ writer',
      writer.writeString s = .ok writer' ∧
        writer'.columnPosition ≤ BUFFER_WIDTH ∧
        writer'.columnPosition =
          (writer.scrollbackAfter s).column ∧
        writer'.colorCode = writer.colorCode ∧
        writer'.buffer.toList =
          (writer.scrollbackAfter s).rows.rtake
            BUFFER_HEIGHT ∧
        ∀ t,
          writer'.writeString t =
            writer.writeString (s ++ t)) ∧
    (0x0a ∉ asBytes s →
      writer.columnPosition + s.utf8ByteSize ≤
        BUFFER_WIDTH →
      (writer.scrollbackAfter (s ++ "\n")).rows.length =
        writer.buffer.toList.length + 1) := by
  refine ⟨?_, length_rows_line⟩
  rcases writeBytes_mirrors (scrollback_mirrors hColumn)
      (asBytes s) with
    ⟨writer', hWrite, hColor, hMirrors⟩
  refine ⟨writer', hWrite, ?_, hMirrors.column, hColor,
    hMirrors.shown.same, ?_⟩
  · rw [hMirrors.column]
    exact hMirrors.inside
  · intro t
    rw [writeString, writeString, asBytes_append,
      writeBytes_append, hWrite]
    rfl

theorem writeString_scrolls_hello :
    ∃ writer' : Writer,
      Writer.writeString "Hello\n"
          { columnPosition := 80,
            colorCode := 0x0e,
            buffer := Vector.replicate 25
              (Vector.replicate 80 ⟨0x20, 0x0e⟩) } =
        .ok writer' ∧
        writer'.columnPosition ≤ BUFFER_WIDTH := by
  rcases (writeString_scrolls
      { columnPosition := 80,
        colorCode := 0x0e,
        buffer := Vector.replicate 25
          (Vector.replicate 80 ⟨0x20, 0x0e⟩) }
      (by decide) "Hello\n").1 with
    ⟨writer', hWrite, hInside, _⟩
  exact ⟨writer', hWrite, hInside⟩

end Writer

end Planten
