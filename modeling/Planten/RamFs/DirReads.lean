import Planten.NineP.Streams
import Planten.RamFs.Writes

/-
  Reads of a directory, one reply at a time.

  The listing of a directory is one string of stat records,
  and a read takes its window of it wherever that ends.  So a
  reply may end inside a record, whose other part starts the
  next reply: a client carries these bytes over.

  Key definitions include:
    * `dirStats`
    * `Server.readOn`

  Key theorems include:
    * `dirBytes_eq`
    * `splits_of_window`
    * `Server.prefix_of_readOn`
    * `Server.dir_read_splits`
-/

------------------------------------------------------------
-- Records of a Listing
------------------------------------------------------------

namespace Planten

open Decoder (Drains Splits)

/- The stats of the records of a listing. -/
def dirStats
    (hasher : Hasher)
    (fs : RamFs)
    (path : String) : List Stat :=
  ((fs.listDir path).getD []).filterMap
    (entryStat? hasher fs path)

theorem dirBytes_eq
    (hasher : Hasher)
    (fs : RamFs)
    (path : String) :
    dirBytes hasher fs path =
      (dirStats hasher fs path).flatMap
        encodeStatPayload := by
  unfold dirBytes dirStats
  cases fs.listDir path with
  | none =>
      rfl
  | some entries =>
      exact flatMap_entryBytes hasher fs path entries

variable {stats : List Stat}

/- Part of some records that fit is drained up to its cut. -/
theorem drains_of_splits
    {part cut : Bytes}
    {whole : List Stat}
    (hFits :
      ∀ stat ∈ stats, (statRecord stat).length ≤ 65535)
    (hSplits :
      Splits encodeStatPayload stats part whole cut) :
    Drains decodeStat part whole cut IoError.eof :=
  hSplits.drains
    (fun stat hMem => decodes_decodeStat (hFits stat hMem))
    (fun stat hMem => truncates_decodeStat (hFits stat hMem))
    rfl

/-
  The first bytes of some records that fit hold records in
  whole and a part of the next one.  They hold the first
  record when they are as many as its bytes, and no part of a
  record just when they end with a record.
-/
theorem splits_of_window
    (hFits :
      ∀ stat ∈ stats, (statRecord stat).length ≤ 65535)
    (count : Nat) :
    ∃ whole cut,
      Splits encodeStatPayload stats
          ((stats.flatMap encodeStatPayload).take count)
          whole cut ∧
        Drains decodeStat
          ((stats.flatMap encodeStatPayload).take count)
          whole cut IoError.eof ∧
        (∀ next later,
          stats = next :: later →
            (encodeStatPayload next).length ≤ count →
              whole ≠ []) ∧
        (cut = [] ↔
          (stats.flatMap encodeStatPayload).length ≤ count ∨
            ∃ first last,
              stats = first ++ last ∧
                (first.flatMap
                  encodeStatPayload).length = count) := by
  rcases Decoder.exists_splits
    (List.take_prefix count
      (stats.flatMap encodeStatPayload)) with
    ⟨whole, cut, hSplits⟩
  have hDrains := drains_of_splits hFits hSplits
  refine ⟨whole, cut, hSplits, hDrains, ?_, ?_⟩
  · rintro next later rfl hCount rfl
    rcases hSplits with ⟨hBytes, after, hAfter, hNext⟩
    rw [List.flatMap_cons, List.take_append,
      List.take_of_length_le hCount] at hBytes
    have hRecord := congrArg List.length hBytes
    rw [List.flatMap_nil, List.nil_append,
      List.length_append] at hRecord
    have hSome : cut ≠ [] := by
      rintro rfl
      have hPos := length_encodeStatPayload next
      rw [List.length_nil] at hRecord
      omega
    rcases hNext hSome with
      ⟨next', later', rfl, hPrefix, hNe⟩
    cases hAfter
    apply hNe
    apply hPrefix.eq_of_length
    have hLe := hPrefix.length_le
    omega
  · constructor
    · rintro rfl
      rcases hSplits with ⟨hBytes, after, hAfter, _⟩
      by_cases hAll :
          (stats.flatMap encodeStatPayload).length ≤ count
      · exact Or.inl hAll
      · refine Or.inr ⟨whole, after, hAfter, ?_⟩
        rw [List.append_nil] at hBytes
        rw [← hBytes, List.length_take]
        omega
    · intro hEnd
      have hWhole :
          ∃ first,
            Splits encodeStatPayload stats
              ((stats.flatMap encodeStatPayload).take count)
              first [] := by
        rcases hEnd with hAll | ⟨first, last, hSplit, rfl⟩
        · refine ⟨stats, ?_, [], ?_, ?_⟩
          · rw [List.take_of_length_le hAll,
              List.append_nil]
          · rw [List.append_nil]
          · intro hCut
            exact (hCut rfl).elim
        · refine ⟨first, ?_, last, hSplit, ?_⟩
          · rw [hSplit, List.flatMap_append, List.take_left,
              List.append_nil]
          · intro hCut
            exact (hCut rfl).elim
      rcases hWhole with ⟨first, hFirst⟩
      exact (hDrains.unique
        (drains_of_splits hFits hFirst)).2.1

end Planten

------------------------------------------------------------
-- Reads One after the Other
------------------------------------------------------------

namespace Planten

open Decoder (Splits)

namespace Server

variable (hasher : Hasher)

/-
  The bytes of a number of reads, the `i`-th first, each from
  where the reply before it ended.  An offset has 64 bits.
-/
def readOn
    (conn : Nat)
    (fid : UInt32)
    (reads : Reads) :
    Nat → Nat → Server → Nat → Option Bytes
| 0, _, _, _ => some []
| n + 1, i, srv, offset =>
    if 2 ^ 64 ≤ offset then
      none
    else
      let event := readEvent conn fid reads i offset
      (srv.readReply hasher event).bind (fun chunk =>
        (readOn conn fid reads n (i + 1)
          (srv.step hasher event)
          (offset + chunk.length)).map (chunk ++ ·))

variable {hasher} {srv : Server}
variable {conn : Nat} {fid : UInt32} {path : String}

/- Reads one after the other go on along the data. -/
theorem prefix_of_readOn
    (hOpen : srv.OpenForRead conn fid path)
    {data : Bytes}
    (hData : readData hasher srv.ramfs path = .ok data)
    {reads : Reads}
    {n i offset : Nat}
    {bytes : Bytes}
    (hBytes :
      readOn hasher conn fid reads n i srv offset =
        some bytes) :
    bytes <+: data.drop offset := by
  induction n generalizing i offset bytes with
  | zero =>
      cases hBytes
      exact List.nil_prefix
  | succ n ih =>
      rw [readOn] at hBytes
      split at hBytes
      · cases hBytes
      · rename_i hOffset
        rw [Option.bind_eq_some_iff] at hBytes
        rcases hBytes with ⟨chunk, hReply, hBytes⟩
        rw [Option.map_eq_some_iff] at hBytes
        rcases hBytes with ⟨later, hLater, rfl⟩
        rcases window_of_readReply hOpen hData
          (Request.decode_read fid (UInt64.ofNat offset)
            (reads.count i)) hReply with
          ⟨hChunk, hSame⟩
        have hWord :
            (UInt64.ofNat offset).toNat = offset :=
          UInt64.toNat_ofNat_of_lt' (not_le.mp hOffset)
        rw [hWord] at hChunk
        rw [readEvent, hSame] at hLater
        have hNext := ih hLater
        rw [← List.drop_drop] at hNext
        have hSplit :
            chunk ++ (data.drop offset).drop chunk.length =
              data.drop offset := by
          apply List.prefix_iff_eq_append.mp
          rw [hChunk]
          exact List.take_prefix _ _
        rw [← hSplit]
        exact (List.prefix_append_right_inj chunk).mpr hNext

/-
  The data of a reply to a read of a directory are a window
  of its listing.  From the start of a record on, they hold
  records in whole, the first one if the count allows, and a
  part of the next one, unless the read ends with a record or
  at the end of the listing.  The replies to reads one after
  the other, put together, hold every record but for a part
  of the next one, and decoding gives these records and
  leaves that part.
-/
theorem dir_read_splits
    (hasher : Hasher)
    {srv : Server}
    {conn : Nat}
    {fid : UInt32}
    {path : String}
    {attrs : Attrs}
    (hNode : srv.ramfs.view (components path) = some attrs)
    (hDir : attrs.IsDir)
    (hFits :
      ∀ stat ∈ dirStats hasher srv.ramfs path,
        (statRecord stat).length ≤ 65535)
    (hOpen : srv.OpenForRead conn fid path) :
    (∀ (before later : List Stat) (offset : UInt64)
        (count : UInt32) (tag : UInt16) (body : Bytes)
        (clock : Clock) (chunk : Bytes),
      dirStats hasher srv.ramfs path = before ++ later →
        offset.toNat =
          (before.flatMap encodeStatPayload).length →
        Request.decode TREAD body =
          .ok (.tread fid offset count) →
        srv.readReply hasher
            (.request conn TREAD tag body clock) =
          some chunk →
        ∃ whole cut,
          Splits encodeStatPayload later chunk whole cut ∧
            Decoder.Drains decodeStat chunk whole cut
              IoError.eof ∧
            (∀ next rest,
              later = next :: rest →
                (encodeStatPayload next).length ≤
                    count.toNat →
                  whole ≠ []) ∧
            (cut = [] ↔
              (later.flatMap encodeStatPayload).length ≤
                  count.toNat ∨
                ∃ first last,
                  later = first ++ last ∧
                    (first.flatMap
                      encodeStatPayload).length =
                        count.toNat)) ∧
    ∀ (reads : Reads) (n : Nat) (bytes : Bytes),
      readOn hasher conn fid reads n 0 srv 0 =
          some bytes →
        ∃ whole cut,
          Splits encodeStatPayload
              (dirStats hasher srv.ramfs path) bytes whole
              cut ∧
            Decoder.Drains decodeStat bytes whole cut
              IoError.eof := by
  have hData := readData_of_isDir hasher hNode hDir
  rw [dirBytes_eq] at hData
  constructor
  · intro before later offset count tag body clock chunk
      hStats hOffset hDecode hReply
    have hChunk :=
      (window_of_readReply hOpen hData hDecode hReply).1
    rw [hStats, List.flatMap_append, hOffset,
      List.drop_left] at hChunk
    rw [hChunk]
    apply splits_of_window
    intro stat hMem
    apply hFits
    rw [hStats]
    exact List.mem_append_right _ hMem
  · intro reads n bytes hBytes
    have hPrefix := prefix_of_readOn hOpen hData hBytes
    rw [List.drop_zero] at hPrefix
    rcases Decoder.exists_splits hPrefix with
      ⟨whole, cut, hSplits⟩
    exact ⟨whole, cut, hSplits,
      drains_of_splits hFits hSplits⟩

/- A short read of the root gives a part of its record. -/
theorem dir_read_splits_of_openedRoot :
    ∃ whole cut,
      Splits encodeStatPayload
        (dirStats (fun _ _ => 0)
          (Run.final (step (fun _ _ => 0))
            (start (RamFs.fresh 0)) openedRoot).ramfs "/")
        [61, 0, 0, 0, 0] whole cut := by
  have hReads :=
    @dir_read_splits (fun _ _ => 0)
      (Run.final (step (fun _ _ => 0))
        (start (RamFs.fresh 0)) openedRoot) 0 0 "/"
      (freshAttrs "/" dirMode 0) (by decide +kernel)
      (by decide) (by decide +kernel)
      ⟨[(0, ⟨"/", ⟨0x80, 0, 0⟩, some 0⟩),
          (1, .new "/a" ⟨0, 0, 0⟩)],
        ⟨"/", ⟨0x80, 0, 0⟩, some 0⟩, 0, by decide +kernel,
        rfl, rfl, rfl, rfl⟩
  rcases hReads.1 [] _ 0 5 0 (encodeReadBody 0 0 5)
    (fun _ => 0) [61, 0, 0, 0, 0] rfl rfl (by decide)
    (by decide +kernel) with
    ⟨whole, cut, hSplits, _⟩
  exact ⟨whole, cut, hSplits⟩

/- One client creates two files and opens the root. -/
def openedPair : List Event :=
  openedFile ++
    [.request 0 TCREATE 0 (encodeCreateBody 0 "b" 0 0)
        (fun _ => 0),
      .request 0 TOPEN 0 (encodeOpenBody 0 0) (fun _ => 0)]

/-
  A read of one byte more than the first record ends inside
  the second one.
-/
theorem not_whole_of_openedPair :
    ¬ ∀ (hasher : Hasher) (fs : RamFs) (events : List Event)
        (conn : Nat) (fid : UInt32) (path : String)
        (attrs : Attrs) (next : Stat) (later : List Stat)
        (count : UInt32) (tag : UInt16) (clock : Clock)
        (chunk : Bytes),
      (Run.final (step hasher) (start fs)
          events).ramfs.view (components path) =
        some attrs → attrs.IsDir →
      (∀ stat ∈ dirStats hasher
          (Run.final (step hasher) (start fs)
            events).ramfs path,
        (statRecord stat).length ≤ 65535) →
      dirStats hasher
          (Run.final (step hasher) (start fs)
            events).ramfs path = next :: later →
      (encodeStatPayload next).length ≤ count.toNat →
      (Run.final (step hasher) (start fs)
        events).OpenForRead conn fid path →
      (Run.final (step hasher) (start fs)
          events).readReply hasher
            (.request conn TREAD tag
              (encodeReadBody fid 0 count) clock) =
        some chunk →
      ∃ stats,
        Decoder.Drains decodeStat chunk stats []
          IoError.eof := by
  intro hAlways
  generalize hSrv :
    Run.final (step (fun _ _ => 0))
      (start (RamFs.fresh 0)) openedPair = srv
  generalize hRecord :
    inodeToStat (fun _ _ => 0) "/a"
      (.leaf (freshAttrs "a" fileMode 0)) = record
  have hStats :
      dirStats (fun _ _ => 0) srv.ramfs "/" =
        [record, { record with name := "b" }] := by
    rw [← hSrv, ← hRecord]
    decide +kernel
  have hReply :
      srv.readReply (fun _ _ => 0)
          (.request 0 TREAD 0 (encodeReadBody 0 0 64)
            (fun _ => 0)) =
        some (encodeStatPayload record ++ [61]) := by
    rw [← hSrv, ← hRecord]
    decide +kernel
  have hFits : (statRecord record).length ≤ 65535 := by
    rw [← hRecord]
    decide +kernel
  rcases hAlways (fun _ _ => 0) (RamFs.fresh 0) openedPair 0
    0 "/" (freshAttrs "/" dirMode 0) record
    [{ record with name := "b" }] 64 0 (fun _ => 0) _
    (by decide +kernel) (by decide) (by decide +kernel)
    (by rw [hSrv, hStats])
    (by
      rw [← hRecord]
      decide +kernel)
    ⟨[(0, ⟨"/", ⟨0x80, 0, 0⟩, some 0⟩),
        (1, .new "/a" ⟨0, 0, 0⟩)],
      ⟨"/", ⟨0x80, 0, 0⟩, some 0⟩, 0, by decide +kernel,
      rfl, rfl, rfl, rfl⟩
    (by
      rw [hSrv]
      exact hReply) with
    ⟨stats, hDrains⟩
  have hPart :
      Decoder.Drains decodeStat
        (encodeStatPayload record ++ [61]) [record] [61]
        IoError.eof :=
    .more (decodes_decodeStat hFits [61])
      (.stopped (by decide))
  cases (hDrains.unique hPart).2.1

end Server

end Planten
