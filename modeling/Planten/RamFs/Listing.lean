import Planten.RamFs.Refinement
import Planten.RamFs.Replies

/-
  Directory reads list the children.

  A listing is made of the sorted keys of a directory: each
  key is resolved again as a walk step, and the stat record
  of the node found is appended.  Where every key is plain
  and every record fits its length field, the bytes read
  decode to one stat for each child, in order.

  Key definitions include:
    * `entryStat?`
    * `Reads`
    * `Server.drainFrom`
    * `RamFs.Lists`
    * `Attrs.recordSize`, `FlatFs.listingSize`
    * `Server.Listable`

  Key theorems include:
    * `dirBytes_congr`
    * `decode_dirBytes`, `length_dirBytes`
    * `Server.drainFrom_cases`
    * `Server.listing_of_listable`
-/

------------------------------------------------------------
-- Listings
------------------------------------------------------------

namespace Planten

variable (hasher : Hasher)

/- The stat a listing holds for one entry. -/
def entryStat?
    (fs : RamFs)
    (path entry : String) : Option Stat :=
  (resolveStep path entry).bind (fun childPath =>
    (fs.stat childPath).map (inodeToStat hasher childPath))

theorem entryBytes_eq
    (fs : RamFs)
    (path entry : String) :
    entryBytes hasher fs path entry =
      (entryStat? hasher fs path entry).elim []
        encodeStatPayload := by
  unfold entryBytes entryStat?
  cases resolveStep path entry with
  | none =>
      rfl
  | some childPath =>
      simp only [Option.bind_some]
      cases fs.stat childPath with
      | none =>
          rfl
      | some child =>
          rfl

/- The records of a listing are those of its stats. -/
theorem flatMap_entryBytes
    (fs : RamFs)
    (path : String)
    (entries : List String) :
    entries.flatMap (entryBytes hasher fs path) =
      (entries.filterMap
        (entryStat? hasher fs path)).flatMap
          encodeStatPayload := by
  induction entries with
  | nil =>
      rfl
  | cons entry entries ih =>
      rw [List.flatMap_cons, ih, entryBytes_eq]
      cases hStat : entryStat? hasher fs path entry with
      | none =>
          rw [List.filterMap_cons_none hStat]
          rfl
      | some stat =>
          rw [List.filterMap_cons_some hStat,
            List.flatMap_cons]
          rfl

variable {hasher}

/- A stat of an entry depends on the map only. -/
theorem entryStat?_congr
    {fs fs' : RamFs}
    (hView : fs'.view = fs.view)
    (path entry : String) :
    entryStat? hasher fs' path entry =
      entryStat? hasher fs path entry := by
  unfold entryStat?
  congr 1
  funext childPath
  have hVal := fs.stat_map_val childPath
  have hVal' := fs'.stat_map_val childPath
  rw [hView, ← hVal] at hVal'
  have hMap (o : Option Inode) :
      o.map (inodeToStat hasher childPath) =
        (o.map KeyTree.val).map (fun attrs =>
          inodeToStat hasher childPath (.leaf attrs)) := by
    cases o with
    | none =>
        rfl
    | some inode =>
        rfl
  rw [hMap, hMap, hVal']

/- The names listed depend on the map only. -/
theorem listDir_congr
    {fs fs' : RamFs}
    (hView : fs'.view = fs.view)
    (path : String) :
    fs'.listDir path = fs.listDir path := by
  cases hList : fs.listDir path with
  | none =>
      rw [RamFs.listDir_eq_none_iff] at hList ⊢
      rw [hView, hList]
  | some names =>
      cases hList' : fs'.listDir path with
      | none =>
          rw [RamFs.listDir_eq_none_iff, hView,
            ← RamFs.listDir_eq_none_iff, hList] at hList'
          cases hList'
      | some names' =>
          have hNames := RamFs.listDir_eq_some hList
          have hNames' := RamFs.listDir_eq_some hList'
          rw [hView] at hNames'
          congr 1
          apply List.Perm.eq_of_pairwise
            (fun _ _ _ _ hLt hGt =>
              absurd hLt (lt_asymm hGt))
            hNames'.1 hNames.1
          apply (List.perm_ext_iff_of_nodup
            (hNames'.1.imp ne_of_lt)
            (hNames.1.imp ne_of_lt)).mpr
          intro k
          rw [hNames'.2, hNames.2]

/-
  The bytes of a listing do not depend on the order in which
  a directory stores its entries.
-/
theorem dirBytes_congr
    {fs fs' : RamFs}
    (hView : fs'.view = fs.view)
    (path : String) :
    dirBytes hasher fs' path = dirBytes hasher fs path := by
  have hEntry :
      entryBytes hasher fs' path =
        entryBytes hasher fs path := by
    funext entry
    rw [entryBytes_eq, entryBytes_eq,
      entryStat?_congr hView]
  rw [dirBytes, dirBytes, listDir_congr hView, hEntry]

end Planten

------------------------------------------------------------
-- Decoding a Listing
------------------------------------------------------------

namespace Planten

/-
  Bytes list a directory: repeated decoding takes them to
  the last byte, the names of the stats ascend and are the
  keys of the children, and each stat is that of the child
  under its name.
-/
structure RamFs.Lists
    (hasher : Hasher)
    (fs : RamFs)
    (path : String)
    (bytes : Bytes)
    (stats : List Stat) : Prop where
  decoded :
    (Decoder.many decodeStat stats.length).run bytes =
      .ok (stats, [])
  ascending : (stats.map Stat.name).Pairwise (· < ·)
  children :
    ∀ k, k ∈ stats.map Stat.name ↔
      (fs.view (components path ++ [k])).isSome
  own :
    ∀ stat ∈ stats,
      ∃ childPath inode,
        components childPath =
            components path ++ [stat.name] ∧
          fs.stat childPath = some inode ∧
          stat = inodeToStat hasher childPath inode

/- The length of the stat record of a node. -/
def Attrs.recordSize (attrs : Attrs) : Nat :=
  47 + attrs.name.utf8ByteSize + attrs.uid.utf8ByteSize +
    attrs.gid.utf8ByteSize + attrs.uid.utf8ByteSize

/- The records of all children, each behind its length. -/
noncomputable def FlatFs.listingSize
    (m : FlatFs)
    (p : List String) : Nat :=
  ((m.childKeys p).map (fun k =>
    (m (p ++ [k])).elim 0
      (fun attrs => 2 + attrs.recordSize))).sum

/-
  Every child has a plain key, and its stat record fits its
  length field.
-/
structure FlatFs.ListsPlainly
    (m : FlatFs)
    (p : List String) : Prop where
  plain : ∀ k, (m (p ++ [k])).isSome → PlainName k
  records :
    ∀ k attrs,
      m (p ++ [k]) = some attrs →
        attrs.recordSize ≤ 65535

variable {hasher : Hasher} {fs : RamFs} {path : String}

/- The stat of a plain entry is that of the child there. -/
theorem entryStat?_of_plain
    (hasher : Hasher)
    (hNamed : fs.view.NamedByKeys)
    {k : String}
    (hPlain : PlainName k)
    (hNode : (fs.view (components path ++ [k])).isSome) :
    ∃ childPath inode,
      components childPath = components path ++ [k] ∧
        fs.stat childPath = some inode ∧
        inode.val.name = k ∧
        entryStat? hasher fs path k =
          some (inodeToStat hasher childPath inode) := by
  rcases resolveStep_of_plainName path hPlain with
    ⟨childPath, hStep, hPath⟩
  rw [← hPath] at hNode
  cases hStat : fs.stat childPath with
  | none =>
      rw [(fs.stat_eq_none_iff childPath).mp hStat] at hNode
      cases hNode
  | some inode =>
      refine ⟨childPath, inode, hPath, hStat, ?_, ?_⟩
      · apply hNamed _ _ (RamFs.view_of_stat hStat)
        rw [hPath, List.getLast?_concat]
      · rw [entryStat?, hStep, Option.bind_some, hStat]
        rfl

/- Names looked up and read back are the names. -/
theorem map_filterMap_of_some
    {α β : Type}
    {f : α → Option β}
    {g : β → α}
    {l : List α}
    (hSome : ∀ a ∈ l, (f a).map g = some a) :
    (l.filterMap f).map g = l := by
  rw [List.map_filterMap, List.filterMap_congr hSome,
    List.filterMap_some]

/- A directory of plain entries is listed. -/
theorem decode_dirBytes
    (hasher : Hasher)
    (hNamed : fs.view.NamedByKeys)
    (hNode : fs.view (components path) ≠ none)
    (hPlainly : fs.view.ListsPlainly (components path)) :
    ∃ stats,
      fs.Lists hasher path (dirBytes hasher fs path)
        stats := by
  cases hList : fs.listDir path with
  | none =>
      exact absurd
        ((fs.listDir_eq_none_iff path).mp hList) hNode
  | some names =>
      rcases RamFs.listDir_eq_some hList with
        ⟨hAscending, hChildren⟩
      have hEntry (k : String) (hMem : k ∈ names) :=
        entryStat?_of_plain hasher hNamed
          (hPlainly.plain k ((hChildren k).mp hMem))
          ((hChildren k).mp hMem)
      have hNames :
          (names.filterMap
            (entryStat? hasher fs path)).map Stat.name =
              names := by
        apply map_filterMap_of_some
        intro k hMem
        rcases hEntry k hMem with
          ⟨childPath, inode, _, _, hName, hStat⟩
        rw [hStat]
        exact congrArg some hName
      have hOwn :
          ∀ stat ∈
            names.filterMap (entryStat? hasher fs path),
            ∃ childPath inode,
              components childPath =
                  components path ++ [stat.name] ∧
                fs.stat childPath = some inode ∧
                stat =
                  inodeToStat hasher childPath inode := by
        intro stat hMem
        rcases List.mem_filterMap.mp hMem with
          ⟨k, hKey, hStat⟩
        rcases hEntry k hKey with
          ⟨childPath, inode, hPath, hNode, hName, hStat'⟩
        cases hStat'.symm.trans hStat
        refine ⟨childPath, inode, ?_, hNode, rfl⟩
        rw [hPath, ← hName]
        rfl
      refine ⟨names.filterMap (entryStat? hasher fs path),
        ?_, ?_, ?_, hOwn⟩
      · rw [dirBytes, hList]
        simp only [flatMap_entryBytes]
        apply Decoder.Decodes.run_nil
        apply Decoder.decodes_many
        intro stat hMem
        rcases hOwn stat hMem with
          ⟨childPath, inode, hPath, hStat, rfl⟩
        apply decodes_decodeStat
        have hView := RamFs.view_of_stat hStat
        rw [hPath] at hView
        rw [length_statRecord]
        exact hPlainly.records _ _ hView
      · rwa [hNames]
      · rwa [hNames]

/- A listing of plain entries has all of their records. -/
theorem length_dirBytes
    (hasher : Hasher)
    (hNamed : fs.view.NamedByKeys)
    (hNode : fs.view (components path) ≠ none)
    (hPlainly : fs.view.ListsPlainly (components path)) :
    (dirBytes hasher fs path).length =
      fs.view.listingSize (components path) := by
  cases hList : fs.listDir path with
  | none =>
      exact absurd
        ((fs.listDir_eq_none_iff path).mp hList) hNode
  | some names =>
      rw [dirBytes, hList, FlatFs.listingSize,
        RamFs.childKeys_view hList]
      simp only [List.length_flatMap]
      congr 1
      apply List.map_congr_left
      intro k hMem
      have hSome :=
        ((RamFs.listDir_eq_some hList).2 k).mp hMem
      rcases entryStat?_of_plain hasher hNamed
          (hPlainly.plain k hSome) hSome with
        ⟨childPath, inode, hPath, hStat, _, hEntry⟩
      rw [entryBytes_eq, hEntry, ← hPath,
        RamFs.view_of_stat hStat, Option.elim_some,
        Option.elim_some, length_encodeStatPayload,
        length_statRecord]
      rfl

end Planten

------------------------------------------------------------
-- Reads of an Open Fid
------------------------------------------------------------

namespace Planten

/-
  The reads of a drain: their counts, and the tags and clock
  readings they come with.
-/
structure Reads where
  count : Nat → UInt32
  tag : Nat → UInt16
  clock : Nat → Clock

namespace Server

variable (hasher : Hasher)

/- The data of the reply to an event. -/
def readReply
    (srv : Server)
    (event : Event) : Option Bytes :=
  match RawMessage.readFrom.run (srv.sent hasher event) with
  | .ok (msg, []) =>
      match (Reply.decoder msg.msgType).run msg.body with
      | .ok (.rread data, []) => some data
      | _ => none
  | _ => none

/- The `i`-th read of a drain. -/
def readEvent
    (conn : Nat)
    (fid : UInt32)
    (reads : Reads)
    (i offset : Nat) : Event :=
  .request conn TREAD (reads.tag i)
    (encodeReadBody fid (UInt64.ofNat offset)
      (reads.count i)) (reads.clock i)

/-
  Read on from an offset, the `i`-th read first, until an
  empty reply, within a number of reads.
-/
def drainFrom
    (conn : Nat)
    (fid : UInt32)
    (reads : Reads) :
    Nat → Nat → Server → Nat → Option Bytes
| 0, _, _, _ => none
| fuel + 1, i, srv, offset =>
    let event := readEvent conn fid reads i offset
    match srv.readReply hasher event with
    | none => none
    | some [] => some []
    | some chunk =>
        (drainFrom conn fid reads fuel (i + 1)
          (srv.step hasher event)
          (offset + chunk.length)).map (chunk ++ ·)

/- Reading from offset 0 gives these bytes. -/
def Drains
    (srv : Server)
    (conn : Nat)
    (fid : UInt32)
    (reads : Reads)
    (bytes : Bytes) : Prop :=
  ∃ fuel,
    drainFrom hasher conn fid reads fuel 0 srv 0 =
      some bytes

/- A fid of a connection is open for reading, at a path. -/
def OpenForRead
    (srv : Server)
    (conn : Nat)
    (fid : UInt32)
    (path : String) : Prop :=
  ∃ fids state mode,
    srv.conns conn = some fids ∧
      fids.lookup fid = some state ∧
      state.path = path ∧
      state.openMode = some mode ∧
      modeAllowsRead mode = true

variable {hasher} {srv : Server}

/- A reply that is read back gives its data. -/
theorem readReply_of_readBack
    {event : Event}
    {tag : UInt16}
    {data : Bytes}
    (hReadBack :
      (Reply.rread data).ReadBack tag
        (srv.sent hasher event)) :
    srv.readReply hasher event = some data := by
  rcases hReadBack with ⟨size, body, hRead, hDecode⟩
  simp only [readReply, hRead, hDecode]

/- A read of an open fid sends its chunk. -/
theorem run_handleRead
    {s : Session}
    (hLock : s.poisoned = false)
    {fid : UInt32}
    {state : FidState}
    {mode : UInt8}
    {data : Bytes}
    (hFid : s.fids.lookup fid = some state)
    (hMode : state.openMode = some mode)
    (hAllowed : modeAllowsRead mode = true)
    (hData : readData hasher s.ramfs state.path = .ok data)
    {offset : UInt64}
    {count : UInt32}
    {body rest : Bytes}
    (hFields :
      readFields.run body =
        .ok ((fid, offset, count), rest))
    (hEnd : offset.toNat + count.toNat < 2 ^ 64)
    {tag : UInt16}
    {frame : Bytes}
    (hFrame :
      (Reply.rread ((data.drop offset.toNat).take
        count.toNat)).frame tag = .ok frame) :
    handleRead hasher tag body s =
      .ok () { s with sent := s.sent ++ frame } := by
  have hWindow :=
    (readWindow_eq data offset count).trans
      (if_neg (not_le.mpr hEnd))
  rw [handleRead, run_bind, run_parse, hFields]
  simp only [run_bind, run_get, hFid, hMode, hAllowed,
    not_true_eq_false, if_false]
  rw [run_withLock _ hLock]
  simp only [run_bind, run_get, hData, run_pure,
    poisonOnPanic, hWindow]
  apply (run_sendResponse (.rread _) tag s).trans
  rw [hFrame]

theorem readFields_of_decode
    {body : Bytes}
    {fid : UInt32}
    {offset : UInt64}
    {count : UInt32}
    (hDecode :
      Request.decode TREAD body =
        .ok (.tread fid offset count)) :
    ∃ rest,
      readFields.run body =
        .ok ((fid, offset, count), rest) := by
  rcases ok_of_map_ok hDecode with
    ⟨⟨fields, rest⟩, hFields, hReq⟩
  cases hReq
  exact ⟨rest, hFields⟩

/-
  A read whose chunk fits a frame is answered with the chunk
  and changes nothing.
-/
theorem read_of_open
    (hLock : srv.poisoned = false)
    {conn : Nat}
    {fid : UInt32}
    {path : String}
    (hOpen : srv.OpenForRead conn fid path)
    {data : Bytes}
    (hData : readData hasher srv.ramfs path = .ok data)
    {body : Bytes}
    {offset : UInt64}
    {count : UInt32}
    (hDecode :
      Request.decode TREAD body =
        .ok (.tread fid offset count))
    (hEnd : offset.toNat + count.toNat < 2 ^ 64)
    (hChunk :
      min count.toNat (data.length - offset.toNat) <
        2 ^ 32 - 11)
    (tag : UInt16)
    (clock : Clock) :
    srv.readReply hasher
        (.request conn TREAD tag body clock) =
      some ((data.drop offset.toNat).take count.toNat) ∧
    srv.step hasher
        (.request conn TREAD tag body clock) =
      srv := by
  rcases hOpen with
    ⟨fids, state, mode, hConn, hFid, rfl, hMode, hAllowed⟩
  rcases readFields_of_decode hDecode with ⟨rest, hFields⟩
  have hSize :
      7 + (Reply.rread ((data.drop offset.toNat).take
        count.toNat)).body.length < 2 ^ 32 := by
    simp only [Reply.body, List.length_append,
      length_u32le, List.length_take, List.length_drop]
    omega
  have hFrame :=
    @Reply.frame_of_fits (.rread ((data.drop offset.toNat).take
      count.toNat)) tag hSize
  have hRun :=
    @run_handleRead hasher (srv.session fids) hLock _ _ _ _
      hFid hMode hAllowed hData _ _ _ _ hFields hEnd _ _
      hFrame
  have hHandle :=
    handle_of_open hConn hasher TREAD tag body clock
  have hMessage :
      handleMessage hasher clock TREAD tag body
          (srv.session fids) =
        handleRead hasher tag body (srv.session fids) := rfl
  rw [hMessage, hRun] at hHandle
  constructor
  · have hSent :
        srv.sent hasher
            (.request conn TREAD tag body clock) =
          frameBytes RREAD tag
            (Reply.rread ((data.drop offset.toNat).take
              count.toNat)).body := by
      rw [sent, hHandle]
      rfl
    apply readReply_of_readBack
    rw [hSent]
    apply (Reply.readBack_iff hFrame).mpr
    refine ⟨hSize, ?_⟩
    simp only [Reply.Fits, List.length_take,
      List.length_drop]
    omega
  · rw [step, hHandle]
    simp only [Option.elim_some, settle, session,
      ← hConn, Function.update_eq_self]

end Server

end Planten

------------------------------------------------------------
-- Drains
------------------------------------------------------------

namespace Planten

/- The bytes asked for before the `i`-th read. -/
def Reads.total (reads : Reads) : Nat → Nat
| 0 => 0
| i + 1 => reads.total i + (reads.count i).toNat

namespace Server

/- No read of a drain takes almost four gigabytes. -/
def ChunksFit
    (reads : Reads)
    (size : Nat) : Prop :=
  ∀ i,
    min (reads.count i).toNat (size - reads.total i) <
      2 ^ 32 - 11

variable {hasher : Hasher} {srv : Server}

/-
  A drain takes all the data from its offset on, or runs out
  of reads.  Every read starts where the bytes asked for
  before it end, or at the end of the data.
-/
theorem drainFrom_cases
    (hLock : srv.poisoned = false)
    {conn : Nat}
    {fid : UInt32}
    {path : String}
    (hOpen : srv.OpenForRead conn fid path)
    {data : Bytes}
    (hData : readData hasher srv.ramfs path = .ok data)
    (hSize : data.length ≤ isizeMax)
    {reads : Reads}
    (hPositive : ∀ i, 0 < reads.count i)
    (hChunks : ChunksFit reads data.length)
    (fuel i : Nat)
    {offset : Nat}
    (hOffset : offset = min (reads.total i) data.length) :
    drainFrom hasher conn fid reads fuel i srv offset =
        some (data.drop offset) ∨
      drainFrom hasher conn fid reads fuel i srv offset =
          none ∧
        fuel ≤ data.length - offset := by
  have hMax : isizeMax = 2 ^ 63 - 1 := rfl
  induction fuel generalizing i offset with
  | zero =>
      exact Or.inr ⟨rfl, Nat.zero_le _⟩
  | succ fuel ih =>
      have hCount := (reads.count i).toNat_lt
      have hSome : 0 < (reads.count i).toNat := hPositive i
      have hWord : (UInt64.ofNat offset).toNat = offset := by
        simp
        omega
      have hChunk := hChunks i
      rcases @read_of_open hasher srv hLock conn fid path
        hOpen data hData _ _ _
        (Request.decode_read fid (UInt64.ofNat offset)
          (reads.count i))
        (by omega) (by omega) (reads.tag i)
        (reads.clock i) with
        ⟨hReply, hSame⟩
      rw [hWord] at hReply
      simp only [drainFrom, readEvent, hReply, hSame]
      generalize hTake :
        (data.drop offset).take (reads.count i).toNat =
          chunk
      have hWhole :
          chunk ++ (data.drop offset).drop chunk.length =
            data.drop offset := by
        rw [← hTake]
        exact List.prefix_iff_eq_append.mp
          (List.take_prefix _ _)
      have hLength :
          chunk.length =
            min (reads.count i).toNat
              (data.length - offset) := by
        rw [← hTake, List.length_take, List.length_drop]
      cases chunk with
      | nil =>
          left
          rw [List.length_nil] at hLength
          rw [List.drop_of_length_le (by omega)]
      | cons byte chunk =>
          rw [List.drop_drop] at hWhole
          have hNext :
              offset + (byte :: chunk).length =
                min (reads.total (i + 1)) data.length := by
            rw [Reads.total]
            omega
          rcases ih (i + 1) hNext with
            hDone | ⟨hMore, hFuel⟩
          · left
            simp only [hDone, Option.map_some, hWhole]
          · right
            simp only [hMore, Option.map_none, true_and]
            rw [List.length_cons] at hLength hFuel
            omega

/- A drain of the data of a fid gives the data. -/
theorem drains_iff
    (hLock : srv.poisoned = false)
    {conn : Nat}
    {fid : UInt32}
    {path : String}
    (hOpen : srv.OpenForRead conn fid path)
    {data : Bytes}
    (hData : readData hasher srv.ramfs path = .ok data)
    (hSize : data.length ≤ isizeMax)
    {reads : Reads}
    (hPositive : ∀ i, 0 < reads.count i)
    (hChunks : ChunksFit reads data.length)
    (bytes : Bytes) :
    srv.Drains hasher conn fid reads bytes ↔
      bytes = data := by
  have hCases (fuel : Nat) :=
    drainFrom_cases hLock hOpen hData hSize hPositive
      hChunks fuel 0 (Nat.zero_min data.length).symm
  constructor
  · rintro ⟨fuel, hDrain⟩
    rcases hCases fuel with hAll | ⟨hNone, _⟩
    · rw [hAll] at hDrain
      exact (Option.some.inj hDrain).symm
    · rw [hNone] at hDrain
      cases hDrain
  · rintro rfl
    refine ⟨bytes.length + 1, ?_⟩
    rcases hCases (bytes.length + 1) with
      hAll | ⟨_, hFuel⟩
    · exact hAll
    · omega

end Server

end Planten

------------------------------------------------------------
-- Names along Runs
------------------------------------------------------------

namespace Planten

/- A change of a request keeps names and keys together. -/
theorem namedByKeys_of_change
    {clock : Clock}
    {m m' : FlatFs}
    {fids : FidTable}
    {req : Request}
    {reply : Reply}
    (hNamed : m.NamedByKeys)
    (hChange : Change clock m fids req m' reply) :
    m'.NamedByKeys := by
  cases hChange with
  | same hQuiet =>
      exact hNamed
  | created hFid hStep hFresh hEpoch =>
      apply FlatFs.NamedByKeys.fill hNamed
      intro q k hLast
      unfold FlatFs.createdAttrs
      split
      · exact FlatFs.name_freshFile clock [] hLast
      · exact FlatFs.name_freshDir clock hLast
  | written hFid hMode hAllowed hNonempty hNode hData =>
      exact FlatFs.NamedByKeys.assign hNamed hNode rfl
  | restatedRoot hFid hRecord hRoot hNode =>
      exact FlatFs.NamedByKeys.assign hNamed hNode rfl
  | restated hFid hRecord hPath hNode hAttrs hKept =>
      exact FlatFs.NamedByKeys.assign hNamed hNode
        (FlatFs.name_of_applyStat hAttrs)
  | renamed hFid hRecord hPath hNode hAttrs hName hNew
      hFree =>
      exact FlatFs.NamedByKeys.relabel hNamed rfl
  | removed hFid hNonempty hNode =>
      exact PathMap.Forall.prune hNamed _

namespace Server

/- In every run names and keys stay together. -/
theorem namedByKeys_final
    (hasher : Hasher)
    {now : SystemTime}
    {fs : RamFs}
    (hNew : RamFs.new now = .ok fs)
    (events : List Event) :
    (Run.final (step hasher) (start fs)
      events).ramfs.view.NamedByKeys := by
  apply @Run.invariant _ _ (step hasher)
    (fun srv => srv.ramfs.view.NamedByKeys)
  · intro srv event hNamed
    rcases change_of_step hasher srv event with
      ⟨hSame, _⟩ |
        ⟨clock, fids, req, reply, _, _, hChange⟩
    · rw [hSame]
      exact hNamed
    · exact namedByKeys_of_change hNamed hChange
  · change fs.view.NamedByKeys
    rw [RamFs.view_of_new hNew]
    apply PathMap.Forall.single
    intro k hLast
    cases hLast

end Server

end Planten

------------------------------------------------------------
-- Directories
------------------------------------------------------------

namespace Planten

namespace Server

/-
  A directory is listed as it is: its keys are plain, the
  records of its children fit, and so do the chunks of the
  reads.  All records together fit a vector.
-/
structure Listable
    (srv : Server)
    (path : String)
    (reads : Reads) : Prop where
  lock : srv.poisoned = false
  plainly : srv.ramfs.view.ListsPlainly (components path)
  size :
    srv.ramfs.view.listingSize (components path) ≤ isizeMax
  chunks :
    ChunksFit reads
      (srv.ramfs.view.listingSize (components path))

/- The data of a directory is its listing. -/
theorem readData_of_isDir
    (hasher : Hasher)
    {fs : RamFs}
    {path : String}
    {attrs : Attrs}
    (hNode : fs.view (components path) = some attrs)
    (hDir : attrs.IsDir) :
    readData hasher fs path =
      .ok (dirBytes hasher fs path) := by
  cases hStat : fs.stat path with
  | none =>
      rw [(fs.stat_eq_none_iff path).mp hStat] at hNode
      cases hNode
  | some inode =>
      cases (RamFs.view_of_stat hStat).symm.trans hNode
      rw [readData, hStat]
      exact if_pos hDir

/-
  In every reachable state, reading a directory that is
  listable gives bytes that list it, whatever the counts.
  Every server with the same map gives the same bytes.
-/
theorem listing_of_listable
    (hasher : Hasher)
    {now : SystemTime}
    {fs : RamFs}
    (hNew : RamFs.new now = .ok fs)
    (events : List Event)
    {srv : Server}
    (hSrv :
      Run.final (step hasher) (start fs) events = srv)
    {conn : Nat}
    {fid : UInt32}
    {path : String}
    {attrs : Attrs}
    (hOpen : srv.OpenForRead conn fid path)
    (hNode : srv.ramfs.view (components path) = some attrs)
    (hDir : attrs.IsDir)
    {reads : Reads}
    (hPositive : ∀ i, 0 < reads.count i)
    (hListable : srv.Listable path reads) :
    ∃ bytes stats,
      srv.Drains hasher conn fid reads bytes ∧
        srv.ramfs.Lists hasher path bytes stats ∧
        ∀ (srv' : Server) conn' fid',
          srv'.ramfs.view = srv.ramfs.view →
            srv'.poisoned = false →
              srv'.OpenForRead conn' fid' path →
                ∀ bytes',
                  srv'.Drains hasher conn' fid' reads
                      bytes' ↔
                    bytes' = bytes := by
  have hNamed := namedByKeys_final hasher hNew events
  rw [hSrv] at hNamed
  rcases decode_dirBytes hasher hNamed
    (hNode ▸ Option.some_ne_none attrs)
    hListable.plainly with
    ⟨stats, hLists⟩
  have hLength :=
    length_dirBytes hasher hNamed
      (hNode ▸ Option.some_ne_none attrs) hListable.plainly
  have hSize := hListable.size
  have hChunks := hListable.chunks
  rw [← hLength] at hSize hChunks
  have hDrains (srv' : Server)
      (conn' : Nat)
      (fid' : UInt32)
      (hView : srv'.ramfs.view = srv.ramfs.view)
      (hLock' : srv'.poisoned = false)
      (hOpen' : srv'.OpenForRead conn' fid' path)
      (bytes' : Bytes) :
      srv'.Drains hasher conn' fid' reads bytes' ↔
        bytes' = dirBytes hasher srv.ramfs path := by
    have hData' :
        readData hasher srv'.ramfs path =
          .ok (dirBytes hasher srv.ramfs path) := by
      rw [← hView] at hNode
      rw [readData_of_isDir hasher hNode hDir,
        dirBytes_congr hView]
    exact drains_iff hLock' hOpen' hData' hSize hPositive
      hChunks bytes'
  exact ⟨_, stats,
    (hDrains srv conn fid rfl hListable.lock hOpen _).mpr
      rfl,
    hLists, hDrains⟩

/- Reads of 8192 bytes. -/
def blockReads : Reads :=
  ⟨fun _ => 8192, fun _ => 0, fun _ _ => 0⟩

theorem chunksFit_blockReads (size : Nat) :
    ChunksFit blockReads size := by
  intro i
  exact (min_le_left _ _).trans_lt
    (by decide : 8192 < 2 ^ 32 - 11)

/- One client creates the file `a` and opens the root. -/
def openedRoot : List Event :=
  openedFile ++
    [.request 0 TOPEN 0 (encodeOpenBody 0 0) (fun _ => 0)]

/- The root then lists the file. -/
theorem listing_of_openedRoot :
    ∃ bytes stats,
      (Run.final (step (fun _ _ => 0))
        (start (RamFs.fresh 0)) openedRoot).Drains
          (fun _ _ => 0) 0 0 blockReads bytes ∧
        (Run.final (step (fun _ _ => 0))
          (start (RamFs.fresh 0)) openedRoot).ramfs.Lists
            (fun _ _ => 0) "/" bytes stats := by
  generalize hSrv :
    Run.final (step (fun _ _ => 0))
      (start (RamFs.fresh 0)) openedRoot = srv
  have hList : srv.ramfs.listDir "/" = some ["a"] := by
    rw [← hSrv]
    decide +kernel
  have hFile :
      srv.ramfs.view (components "/" ++ ["a"]) =
        some (freshAttrs "a" fileMode 0) := by
    rw [← hSrv]
    decide +kernel
  have hOpen : srv.OpenForRead 0 0 "/" := by
    rw [← hSrv]
    exact ⟨[(0, ⟨"/", ⟨0x80, 0, 0⟩, some 0⟩),
        (1, .new "/a" ⟨0, 0, 0⟩)],
      ⟨"/", ⟨0x80, 0, 0⟩, some 0⟩, 0, by decide +kernel,
      rfl, rfl, rfl, rfl⟩
  have hChild
      (k : String)
      (hNode :
        (srv.ramfs.view (components "/" ++ [k])).isSome) :
      k = "a" := by
    rw [← (RamFs.listDir_eq_some hList).2 k] at hNode
    exact List.mem_singleton.mp hNode
  have hListable :
      srv.Listable "/" blockReads := by
    refine ⟨?_, ⟨?_, ?_⟩, ?_, chunksFit_blockReads _⟩
    · rw [← hSrv]
      decide +kernel
    · intro k hNode
      rw [hChild k hNode]
      decide
    · intro k attrs hNode
      cases hChild k (Option.isSome_of_eq_some hNode)
      cases hFile.symm.trans hNode
      decide
    · rw [FlatFs.listingSize, RamFs.childKeys_view hList,
        List.map_singleton, hFile]
      decide
  have hListing :=
    @listing_of_listable (fun _ _ => 0) 0 (RamFs.fresh 0)
      (RamFs.new_eq_fresh (le_refl 0)) openedRoot srv hSrv 0
      0 "/" (freshAttrs "/" dirMode 0) hOpen
      (by
        rw [← hSrv]
        decide +kernel)
      (by decide) blockReads
      (fun _ => (by decide : (0 : UInt32) < 8192)) hListable
  rcases hListing with ⟨bytes, stats, hDrains, hLists, _⟩
  exact ⟨bytes, stats, hDrains, hLists⟩

/-
  A client renames the file `a` to `..`, which a listing of
  the root resolves to the root itself.
-/
theorem not_listed_of_renamedFile :
    ¬ ∀ (hasher : Hasher) (now : SystemTime) (fs : RamFs)
        (events : List Event) (conn : Nat) (fid : UInt32)
        (path : String) (attrs : Attrs) (reads : Reads),
      RamFs.new now = .ok fs →
        (Run.final (step hasher) (start fs)
          events).OpenForRead conn fid path →
        (Run.final (step hasher) (start fs)
          events).ramfs.view (components path) =
            some attrs →
        attrs.IsDir → (∀ i, 0 < reads.count i) →
          ∃ bytes stats,
            (Run.final (step hasher) (start fs)
              events).Drains hasher conn fid reads bytes ∧
            (Run.final (step hasher) (start fs)
              events).ramfs.Lists hasher path bytes
                stats := by
  intro hAlways
  generalize hSrv :
    Run.final (step (fun _ _ => 0))
      (start (RamFs.fresh 0))
      (openedRoot ++
        [.request 0 TWSTAT 0
          (encodeWstatBody 1 (renameStat ".."))
          (fun _ => 0)]) = srv
  have hOpen : srv.OpenForRead 0 0 "/" := by
    rw [← hSrv]
    exact ⟨[(0, ⟨"/", ⟨0x80, 0, 0⟩, some 0⟩),
        (1, .new "/a" ⟨0, 0, 0⟩)],
      ⟨"/", ⟨0x80, 0, 0⟩, some 0⟩, 0, by decide +kernel,
      rfl, rfl, rfl, rfl⟩
  have hNode :
      srv.ramfs.view (components "/") =
        some (freshAttrs "/" dirMode 0) := by
    rw [← hSrv]
    decide +kernel
  have hDir : (freshAttrs "/" dirMode 0).IsDir := by
    decide
  rcases hAlways (fun _ _ => 0) 0 (RamFs.fresh 0) _ 0 0 "/"
    (freshAttrs "/" dirMode 0) blockReads
    (RamFs.new_eq_fresh (le_refl 0)) (hSrv ▸ hOpen)
    (hSrv ▸ hNode) hDir
    (fun _ => (by decide : (0 : UInt32) < 8192)) with
    ⟨bytes, stats, hDrains, hLists⟩
  rw [hSrv] at hDrains hLists
  generalize hRoot :
    inodeToStat (fun _ _ => 0) "/"
      (.leaf (freshAttrs "/" dirMode 0)) = root
  have hListing :
      dirBytes (fun _ _ => 0) srv.ramfs "/" =
        encodeStatPayload root := by
    rw [← hSrv, ← hRoot]
    decide +kernel
  have hBytes : bytes = encodeStatPayload root := by
    rw [← hListing]
    apply (drains_iff _ hOpen
      (readData_of_isDir _ hNode hDir) _ _
      (chunksFit_blockReads _) _).mp hDrains
    · rw [← hSrv]
      decide +kernel
    · rw [← hSrv]
      decide +kernel
    · exact fun _ => (by decide : (0 : UInt32) < 8192)
  -- the bytes hold the one record of the root
  have hFirst : decodeStat.run bytes = .ok (root, []) := by
    rw [hBytes]
    apply (decodes_decodeStat _).run_nil
    rw [← hRoot]
    decide
  have hMem : ".." ∈ stats.map Stat.name := by
    rw [hLists.children, ← hSrv]
    decide +kernel
  have hDecoded := hLists.decoded
  cases stats with
  | nil =>
      cases hMem
  | cons stat stats =>
      rcases Decoder.run_bind_ok hDecoded with
        ⟨first, mid, hHead, hTail⟩
      cases hFirst.symm.trans hHead
      cases stats with
      | nil =>
          cases hTail
          rw [← hRoot] at hMem
          revert hMem
          decide
      | cons next stats =>
          rcases Decoder.run_bind_ok hTail with
            ⟨rest, cursor, hRest, _⟩
          rcases Decoder.run_bind_ok hRest with
            ⟨second, cursor', hSecond, _⟩
          cases hSecond

end Server

end Planten
