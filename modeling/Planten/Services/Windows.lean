import Planten.Library.Paging
import Planten.PseudoFs.Outcomes

/-
  The windows that the servers cut for a read.

  `readWindow` tests where the data ends before it cuts, and
  `fileWindow` tests whether anything is left to cut.  With
  sums that wrap, both give the bytes from the offset on, at
  most as many as were asked for.

  Key definitions include:
    * `readAll`

  Key theorems include:
    * `readWindow_release`
    * `fileWindow_release`
    * `readAll_of_windows`
    * `windows_agree`
-/

------------------------------------------------------------
-- Windows
------------------------------------------------------------

namespace Planten

/- A sum that wraps comes from an offset behind any data. -/
theorem past_of_wraps
    {data : Bytes}
    (hSize : data.length ≤ isizeMax)
    {offset : UInt64}
    {count : UInt32}
    (hWraps : ¬ offset.toNat + count.toNat < 2 ^ 64) :
    data.length ≤ offset.toNat ∧
      usizeAdd .release offset.toNat count.toNat =
        .ok ((offset.toNat + count.toNat) % 2 ^ 64) := by
  have hMax : isizeMax = 2 ^ 63 - 1 := rfl
  have hCount := count.toNat_lt
  exact ⟨by omega, if_neg hWraps⟩

/- There the window is empty, whatever the sum wraps to. -/
theorem window_of_past
    {data : Bytes}
    {offset count : Nat}
    (hPast : data.length ≤ offset) :
    (data.drop offset).take count = [] := by
  rw [List.drop_of_length_le hPast, List.take_nil]

theorem readWindow_release
    {data : Bytes}
    (hSize : data.length ≤ isizeMax)
    (offset : UInt64)
    (count : UInt32) :
    readWindow .release data offset count =
      .ok ((data.drop offset.toNat).take count.toNat) := by
  by_cases hFits : offset.toNat + count.toNat < 2 ^ 64
  · exact readWindow_of_fits hFits .release data
  · rcases past_of_wraps hSize hFits with ⟨hPast, hAdd⟩
    simp only [readWindow]
    rw [hAdd, window_of_past hPast]
    exact if_pos hPast

theorem fileWindow_release
    {data : Bytes}
    (hSize : data.length ≤ isizeMax)
    (offset : UInt64)
    (count : UInt32) :
    fileWindow .release data offset count =
      .ok ((data.drop offset.toNat).take count.toNat) := by
  by_cases hFits : offset.toNat + count.toNat < 2 ^ 64
  · exact fileWindow_of_fits hFits .release data
  · rcases past_of_wraps hSize hFits with ⟨hPast, hAdd⟩
    simp only [fileWindow]
    rw [hAdd, window_of_past hPast]
    -- the end is cut to the data, and so before the start
    exact if_neg (by omega)

end Planten

------------------------------------------------------------
-- Pages
------------------------------------------------------------

namespace Planten

/-
  Read from offset 0, and then from where the last read
  ended, until an empty reply or for a number of reads.
-/
def readAll
    (window : UInt64 → UInt32 → Except Panic Bytes)
    (counts : Nat → UInt32)
    (reads : Nat) : Except Panic (Option Bytes) :=
  Paging.readOn (fun i offset =>
    window (UInt64.ofNat offset) (counts i)) reads 0 0

theorem readAll_of_windows
    {data : Bytes}
    (hSize : data.length ≤ isizeMax)
    {window : UInt64 → UInt32 → Except Panic Bytes}
    (hWindow :
      ∀ offset count,
        window offset count =
          .ok ((data.drop offset.toNat).take count.toNat))
    {counts : Nat → UInt32}
    (hPositive : ∀ i, 0 < counts i)
    {reads : Nat}
    (hReads : data.length < reads) :
    readAll window counts reads = .ok (some data) := by
  have hMax : isizeMax = 2 ^ 63 - 1 := rfl
  have hWindows :
      ∀ i, ∀ offset ≤ data.length,
        window (UInt64.ofNat offset) (counts i) =
          .ok ((data.drop offset).take
            (counts i).toNat) := by
    intro i offset hInside
    have hWord : (UInt64.ofNat offset).toNat = offset := by
      rw [UInt64.toNat_ofNat']
      exact Nat.mod_eq_of_lt (by omega)
    rw [hWindow, hWord]
  exact Paging.readOn_of_windows hWindows hPositive
    (Nat.zero_le _) hReads 0

/-
  The window of RAMFS and the one of the other servers are
  the same, wherever the sum of offset and count lies, and
  reading on through either of them gives the data.
-/
theorem windows_agree
    (data : Bytes)
    (hSize : data.length ≤ isizeMax) :
    (∀ offset count,
      readWindow .release data offset count =
          .ok ((data.drop offset.toNat).take
            count.toNat) ∧
        fileWindow .release data offset count =
          .ok ((data.drop offset.toNat).take
            count.toNat)) ∧
    ∀ counts : Nat → UInt32,
      (∀ i, 0 < counts i) →
        ∀ reads,
          data.length < reads →
            readAll (readWindow .release data) counts reads =
                .ok (some data) ∧
              readAll (fileWindow .release data) counts
                  reads =
                .ok (some data) := by
  refine ⟨?_, ?_⟩
  · intro offset count
    exact ⟨readWindow_release hSize offset count,
      fileWindow_release hSize offset count⟩
  · intro counts hPositive reads hReads
    exact ⟨readAll_of_windows hSize
        (readWindow_release hSize) hPositive hReads,
      readAll_of_windows hSize
        (fileWindow_release hSize) hPositive hReads⟩

/- Three bytes, at the last offset and in pages of two. -/
theorem windows_agree_on_three_bytes :
    fileWindow .release (asBytes "pid")
          18446744073709551615 3 =
        .ok [] ∧
      readAll (fileWindow .release (asBytes "pid"))
          (fun _ => 2) 4 =
        .ok (some (asBytes "pid")) := by
  rcases windows_agree (asBytes "pid") (by decide) with
    ⟨hWindows, hPages⟩
  refine ⟨?_, ?_⟩
  · have hLast := (hWindows 18446744073709551615 3).2
    rw [List.drop_of_length_le (by decide)] at hLast
    exact hLast
  · exact (hPages (fun _ => 2) (fun _ => by decide) 4
      (by decide)).2

end Planten
