import Planten.Library.Overlay
import Planten.RamFs.Listing

/-
  What a write request does, and what reads see of it.

  The data of the node at the path of the fid is overlaid
  with the buffer, and no other node changes.  Until the node
  changes again every read is answered with a window of the
  new data, unless its end overflows or its reply does not
  fit a frame.  When there is no node to write to, the
  handler answers with a count of zero.

  Key definitions include:
    * `Server.AsksWrite`, `Server.MayWrite`
    * `FlatFs.IsFile`, `Server.Writes`, `Server.WrittenBy`

  Key theorems include:
    * `Inode.overlays_splice`
    * `Server.window_of_readReply`, `Server.readReply_iff`
    * `Server.write_of_acknowledged`
    * `Server.writtenBy_of_writes`, `Server.writes_iff`
    * `Server.writes_of_swapped`
    * `Server.write_overlays`
-/

------------------------------------------------------------
-- Splices Are Overlays
------------------------------------------------------------

namespace Planten

namespace Inode

variable (data buf : Bytes) (start : Nat)

/- Before the buffer there are data and zeros. -/
theorem getElem?_splice_of_lt
    {i : Nat}
    (hBefore : i < start) :
    (splice data start buf)[i]? =
      if i < data.length then data[i]? else some 0 := by
  have hFront :
      i < (data.take start ++
        List.replicate (start - data.length) 0).length := by
    simp only [List.length_append, List.length_take,
      List.length_replicate]
    omega
  rw [splice, List.append_assoc _ buf,
    List.getElem?_append_left hFront]
  by_cases hInside : i < data.length
  · rw [if_pos hInside, List.getElem?_append_left (by
      rw [List.length_take]
      omega), List.getElem?_take_of_lt hBefore]
  · rw [if_neg hInside, List.getElem?_append_right (by
      rw [List.length_take]
      omega), List.getElem?_replicate, List.length_take,
      if_pos (by omega)]

/- From the buffer on there are the buffer and the data. -/
theorem getElem?_splice_add (i : Nat) :
    (splice data start buf)[start + i]? =
      if i < buf.length then buf[i]? else data[start + i]? := by
  have hFront :
      (data.take start ++
        List.replicate (start - data.length) (0 : UInt8)
        ).length = start := by
    simp only [List.length_append, List.length_take,
      List.length_replicate]
    omega
  rw [splice, List.append_assoc _ buf,
    List.getElem?_append_right (by omega), hFront,
    Nat.add_sub_cancel_left]
  by_cases hInside : i < buf.length
  · rw [if_pos hInside, List.getElem?_append_left hInside]
  · rw [if_neg hInside,
      List.getElem?_append_right (not_lt.mp hInside),
      List.getElem?_drop]
    congr 1
    omega

/- A splice is the overlay of the buffer. -/
theorem overlays_splice :
    Overlays 0 data start buf (splice data start buf) := by
  constructor
  · exact length_splice data start buf
  · intro i hInside
    rw [getElem?_splice_add, if_pos hInside]
  · intro i hInside hOutside
    by_cases hBefore : i < start
    · rw [getElem?_splice_of_lt data buf start hBefore,
        if_pos hInside]
    · have hSplit : i = start + (i - start) := by
        omega
      rw [hSplit, getElem?_splice_add, if_neg (by omega)]
  · intro i hPast hBefore
    rw [getElem?_splice_of_lt data buf start hBefore,
      if_neg (not_lt.mpr hPast)]

end Inode

end Planten

------------------------------------------------------------
-- Reads of an Open Fid
------------------------------------------------------------

namespace Planten

namespace Server

variable {hasher : Hasher} {srv : Server} {event : Event}

theorem readReply_of_not_sent
    (hSent : srv.sent hasher event = []) :
    srv.readReply hasher event = none := by
  rw [readReply, hSent]
  rfl

/- Under a poisoned lock a read of an open fid panics. -/
theorem panics_of_read_poisoned
    (hLock : srv.poisoned = true)
    {conn : Nat}
    {fid : UInt32}
    {path : String}
    (hOpen : srv.OpenForRead conn fid path)
    {body : Bytes}
    {offset : UInt64}
    {count : UInt32}
    (hDecode :
      Request.decode TREAD body =
        .ok (.tread fid offset count))
    (tag : UInt16)
    (clock : Clock) :
    srv.Panics hasher
      (.request conn TREAD tag body clock) := by
  rcases hOpen with
    ⟨fids, state, mode, hConn, hFid, rfl, hMode, hAllowed⟩
  rcases readFields_of_decode hDecode with ⟨rest, hFields⟩
  apply panics_of_message hConn
  change handleRead hasher tag body (srv.session fids) = _
  have hHere :
      (srv.session fids).fids.lookup fid = some state :=
    hFid
  rw [handleRead, run_bind, run_parse, hFields]
  simp only [run_bind, run_get, hHere, hMode, hAllowed,
    not_true_eq_false, if_false]
  rw [run_withLock_poisoned _ hLock]

section ReadReply

variable {conn : Nat} {fid : UInt32} {path : String}
variable {data body : Bytes}
variable {offset : UInt64} {count : UInt32}

/-
  A read of an open fid is answered only when the lock is not
  poisoned, the end of the read does not overflow and the
  chunk fits a frame.
-/
theorem bounds_of_readReply
    (hOpen : srv.OpenForRead conn fid path)
    (hData : readData hasher srv.ramfs path = .ok data)
    (hDecode :
      Request.decode TREAD body =
        .ok (.tread fid offset count))
    {tag : UInt16}
    {clock : Clock}
    {chunk : Bytes}
    (hReply :
      srv.readReply hasher
          (.request conn TREAD tag body clock) =
        some chunk) :
    srv.poisoned = false ∧
      offset.toNat + count.toNat < 2 ^ 64 ∧
      min count.toNat (data.length - offset.toNat) <
        2 ^ 32 - 11 := by
  have hWhole := hOpen
  rcases hOpen with
    ⟨fids, state, mode, hConn, hFid, rfl, hMode, hAllowed⟩
  have hSent :
      srv.sent hasher
          (.request conn TREAD tag body clock) ≠ [] := by
    intro hNothing
    rw [readReply_of_not_sent hNothing] at hReply
    cases hReply
  have hLock : srv.poisoned = false := by
    rw [← Bool.not_eq_true]
    intro hPoisoned
    have hPanics :=
      @panics_of_read_poisoned hasher _ hPoisoned _ _ _
        hWhole _ _ _ hDecode tag clock
    exact hSent (sent_of_panics _ hPanics)
  rcases step_spec_of_open hConn TREAD tag body clock with
    ⟨reply, hStep, _⟩
  generalize
    srv.step hasher
      (.request conn TREAD tag body clock) = srv'
    at hStep
  cases hStep with
  | lost hClosed =>
      cases hConn.symm.trans hClosed
  | malformed hOpen hError =>
      cases hDecode.symm.trans hError
  | badName hOpen hWalk hNames =>
      cases hDecode.symm.trans hWalk
  | panicked hOpen hDecode' hHazard hPanics =>
      exact (hSent (sent_of_panics _ hPanics)).elim
  | served hOpen hDecode' hEffect hFrame hFrameSent =>
      cases hConn.symm.trans hOpen
      cases hDecode.symm.trans hDecode'
      cases hEffect with
      | refused hRefusal =>
          exact (not_refused_read hFid hMode hAllowed hData _
            _ _ hRefusal).elim
      | read hFid' hMode' hAllowed' hData' hWindow =>
          cases hFid.symm.trans hFid'
          cases hData.symm.trans hData'
          rw [readWindow_eq] at hWindow
          split at hWindow
          · cases hWindow
          · rename_i hEnd
            cases hWindow
            have hSize :
                7 + (Reply.rread ((data.drop
                  offset.toNat).take
                    count.toNat)).body.length < 2 ^ 32 := by
              unfold readReply at hReply
              rw [hFrameSent] at hReply
              split at hReply
              · rename_i msg hRead
                exact fits_of_readFrom hFrame hRead
              · cases hReply
            simp only [Reply.body, List.length_append,
              length_u32le, List.length_take,
              List.length_drop] at hSize
            exact ⟨hLock, not_le.mp hEnd, by omega⟩

/- Then it gives its window, and changes nothing. -/
theorem window_of_readReply
    (hOpen : srv.OpenForRead conn fid path)
    (hData : readData hasher srv.ramfs path = .ok data)
    (hDecode :
      Request.decode TREAD body =
        .ok (.tread fid offset count))
    {tag : UInt16}
    {clock : Clock}
    {chunk : Bytes}
    (hReply :
      srv.readReply hasher
          (.request conn TREAD tag body clock) =
        some chunk) :
    chunk = (data.drop offset.toNat).take count.toNat ∧
      srv.step hasher (.request conn TREAD tag body clock) =
        srv := by
  rcases bounds_of_readReply hOpen hData hDecode hReply with
    ⟨hLock, hEnd, hChunk⟩
  have hRead :=
    read_of_open hLock hOpen hData hDecode hEnd hChunk tag
      clock
  exact ⟨Option.some.inj (hReply.symm.trans hRead.1),
    hRead.2⟩

/-
  A read of an open fid is answered with its window just when
  the lock is not poisoned, its end does not overflow and its
  chunk fits a frame.
-/
theorem readReply_iff
    (hOpen : srv.OpenForRead conn fid path)
    (hData : readData hasher srv.ramfs path = .ok data)
    (hDecode :
      Request.decode TREAD body =
        .ok (.tread fid offset count))
    (tag : UInt16)
    (clock : Clock) :
    srv.readReply hasher
        (.request conn TREAD tag body clock) =
      some ((data.drop offset.toNat).take count.toNat) ↔
    srv.poisoned = false ∧
      offset.toNat + count.toNat < 2 ^ 64 ∧
      min count.toNat (data.length - offset.toNat) <
        2 ^ 32 - 11 := by
  constructor
  · intro hReply
    exact bounds_of_readReply hOpen hData hDecode hReply
  · rintro ⟨hLock, hEnd, hChunk⟩
    exact (read_of_open hLock hOpen hData hDecode hEnd
      hChunk tag clock).1

end ReadReply

end Server

end Planten

------------------------------------------------------------
-- Write Requests
------------------------------------------------------------

namespace Planten

/- The buffer of a write request fits its count. -/
theorem Request.length_buffer_of_decode
    {body : Bytes}
    {fid : UInt32}
    {offset : UInt64}
    {buffer : Bytes}
    (hDecode :
      Request.decode TWRITE body =
        .ok (.twrite fid offset buffer)) :
    buffer.length < 2 ^ 32 := by
  rcases ok_of_map_ok hDecode with ⟨r, hFields, hReq⟩
  rcases r with ⟨⟨fid', offset', buffer'⟩, rest⟩
  cases hReq
  rcases Decoder.run_bind_ok hFields with
    ⟨fid, mid, _, hFields⟩
  rcases Decoder.run_bind_ok hFields with
    ⟨offset, mid, _, hFields⟩
  rcases Decoder.run_bind_ok hFields with
    ⟨count, mid, _, hFields⟩
  rcases Decoder.run_bind_ok hFields with
    ⟨buffer, mid, hBuffer, hFields⟩
  cases hFields
  rw [(Decoder.readExact_ok hBuffer).2]
  exact count.toNat_lt

namespace Server

/- The event is a write request through a fid. -/
def AsksWrite
    (srv : Server)
    (event : Event)
    (clock : Clock)
    (state : FidState)
    (offset : UInt64)
    (buffer : Bytes) : Prop :=
  ∃ conn tag body fids fid,
    event = .request conn TWRITE tag body clock ∧
      srv.conns conn = some fids ∧
      fids.lookup fid = some state ∧
      Request.decode TWRITE body =
        .ok (.twrite fid offset buffer)

variable {hasher : Hasher} {srv : Server} {event : Event}
variable {clock : Clock} {state : FidState}
variable {offset : UInt64} {buffer : Bytes}

/- Under a poisoned lock a write of an open fid panics. -/
theorem panics_of_write_poisoned
    (hLock : srv.poisoned = true)
    (hAsks : srv.AsksWrite event clock state offset buffer)
    {mode : UInt8}
    (hMode : state.openMode = some mode)
    (hAllowed : modeAllowsWrite mode = true) :
    srv.Panics hasher event := by
  rcases hAsks with
    ⟨conn, tag, body, fids, fid, rfl, hConn, hFid, hDecode⟩
  rcases ok_of_map_ok hDecode with ⟨r, hFields, hReq⟩
  cases hReq
  apply panics_of_message hConn
  change handleWrite clock tag body (srv.session fids) = _
  have hHere :
      (srv.session fids).fids.lookup r.1.1 = some state :=
    hFid
  rw [handleWrite, run_bind, run_parse, hFields]
  simp only [run_bind, run_get, hHere, hMode, hAllowed,
    not_true_eq_false, if_false]
  rw [run_withLock_poisoned _ hLock]

/- The write behind an acknowledgement. -/
theorem write_of_acknowledged
    (hAsks : srv.AsksWrite event clock state offset buffer)
    (hReply : srv.replyType hasher event = some RWRITE) :
    srv.poisoned = false ∧
      ∃ mode tag written,
        state.openMode = some mode ∧
          modeAllowsWrite mode = true ∧
          srv.ramfs.write state.path offset buffer clock =
            .ok ((srv.step hasher event).ramfs, written) ∧
          (Reply.rwrite (written.getD 0)).frame tag =
            .ok (srv.sent hasher event) := by
  have hWhole := hAsks
  rcases hAsks with
    ⟨conn, tag, body, fids, fid, rfl, hConn, hFid, hDecode⟩
  rcases effect_of_replyType hConn hDecode hReply with
    ⟨fids', reply, hType, hEffect, hFrame⟩
  generalize
    (srv.step hasher
      (.request conn TWRITE tag body clock)).ramfs = fs'
    at hEffect ⊢
  cases hEffect with
  | refused hRefusal =>
      cases hType
  | write hFid' hMode hAllowed hOp =>
      cases hFid.symm.trans hFid'
      refine ⟨?_, _, tag, _, hMode, hAllowed, hOp, hFrame⟩
      cases hLock : srv.poisoned with
      | false =>
          rfl
      | true =>
          have hPanics :=
            @panics_of_write_poisoned hasher _ _ _ _ _ _
              hLock hWhole _ hMode hAllowed
          rw [replyType, sent_of_panics _ hPanics] at hReply
          cases hReply

/-
  A write request is served, unless the lock is poisoned or
  the write itself fails.
-/
theorem served_of_asksWrite
    (hLock : srv.poisoned = false)
    (hAsks : srv.AsksWrite event clock state offset buffer)
    (hEnds :
      ∀ mode cause,
        state.openMode = some mode →
          modeAllowsWrite mode = true →
            srv.ramfs.write state.path offset buffer clock ≠
              .error cause) :
    ∃ fids fid fs' fids' reply,
      fids.lookup fid = some state ∧
        Effect hasher clock srv.ramfs fids
          (.twrite fid offset buffer) fs' fids' reply ∧
        srv.replyType hasher event = some reply.msgType := by
  rcases hAsks with
    ⟨conn, tag, body, fids, fid, rfl, hConn, hFid, hDecode⟩
  have hSafe (cause : Panic) (poisons : Bool) :
      ¬ Hazard hasher clock tag (srv.session fids)
        (.twrite fid offset buffer) cause poisons := by
    intro hHazard
    cases hHazard with
    | poisonedLock hPoisoned =>
        cases hLock.symm.trans hPoisoned
    | write hFid' hMode' hAllowed' hError =>
        cases hFid.symm.trans hFid'
        exact hEnds _ _ hMode' hAllowed' hError
  rcases served_of_safe hConn hDecode hSafe (by
      rintro _ _ _ _ _ ⟨⟩) with
    ⟨fs', fids', reply, hEffect, _, _, hType⟩
  exact ⟨fids, fid, fs', fids', reply, hFid, hEffect, hType⟩

/- A write that ends is acknowledged. -/
theorem replyType_of_write
    (hLock : srv.poisoned = false)
    (hAsks : srv.AsksWrite event clock state offset buffer)
    {mode : UInt8}
    (hMode : state.openMode = some mode)
    (hAllowed : modeAllowsWrite mode = true)
    {fs : RamFs}
    {written : Option UInt32}
    (hOp :
      srv.ramfs.write state.path offset buffer clock =
        .ok (fs, written)) :
    srv.replyType hasher event = some RWRITE := by
  rcases @served_of_asksWrite hasher _ _ _ _ _ _ hLock hAsks
    (fun _ _ _ _ hError => by
      cases hOp.symm.trans hError) with
    ⟨fids, fid, fs', fids', reply, hFid, hEffect, hType⟩
  rw [hType]
  cases hEffect with
  | write hFid' hMode' hAllowed' hOp' =>
      rfl
  | refused hRefusal =>
      exact (not_refused_write hFid hMode hAllowed _ _ _
        hRefusal).elim

/- A write that is acknowledged changes only the tree. -/
theorem step_of_acknowledged
    (hAsks : srv.AsksWrite event clock state offset buffer)
    (hReply : srv.replyType hasher event = some RWRITE) :
    srv.step hasher event =
      { srv with
        ramfs := (srv.step hasher event).ramfs } := by
  rcases hAsks with
    ⟨conn, tag, body, fids, fid, rfl, hConn, hFid, hDecode⟩
  rcases step_spec hasher srv
    (.request conn TWRITE tag body clock) with
    ⟨reply, hStep, hType⟩
  rw [hReply] at hType
  generalize
    srv.step hasher (.request conn TWRITE tag body clock) =
      srv'
    at hStep ⊢
  cases hStep with
  | lost hClosed | malformed hOpen hError
  | badName hOpen hWalk hNames
  | panicked hOpen hDecode' hHazard hPanics =>
      cases hType
  | served hOpen hDecode' hEffect hFrame hSent =>
      cases hConn.symm.trans hOpen
      cases hDecode.symm.trans hDecode'
      have hSame :
          Function.update srv.conns conn (some fids) =
            srv.conns := by
        rw [← hConn, Function.update_eq_self]
      cases hEffect with
      | refused hRefusal =>
          cases hType
      | write hFid' hMode hAllowed hOp =>
          rw [hSame]

end Server

end Planten

------------------------------------------------------------
-- Writes to a File
------------------------------------------------------------

namespace Planten

/-
  A file: a node below the root without the directory bit.
  The root is no file whatever its bits are.
-/
structure FlatFs.IsFile
    (m : FlatFs)
    (p : List String)
    (attrs : Attrs) : Prop where
  below : p ≠ []
  node : m p = some attrs
  kind : ¬ attrs.IsDir

/- The data of a file is what its node holds. -/
theorem readData_of_isFile
    (hasher : Hasher)
    {fs : RamFs}
    {path : String}
    {attrs : Attrs}
    (hFile : fs.view.IsFile (components path) attrs) :
    readData hasher fs path = .ok attrs.data := by
  cases hStat : fs.stat path with
  | none =>
      have hNone := (fs.stat_eq_none_iff path).mp hStat
      cases hNone.symm.trans hFile.node
  | some inode =>
      cases (RamFs.view_of_stat hStat).symm.trans hFile.node
      rw [readData, hStat]
      simp only [if_neg hFile.kind]
      rw [fs.readFile_eq hFile.below, hFile.node]
      rfl

/- A write that ends here fits the data, or a Vec. -/
def Inode.EndFits
    (data : Bytes)
    (stop : Nat) : Prop :=
  stop < 2 ^ 64 ∧ stop ≤ max data.length isizeMax

/- Just the writes whose end fits go through. -/
theorem Inode.overlay_ok_iff
    (data : Bytes)
    (start : Nat)
    (buf : Bytes) :
    (∃ data', overlay data start buf = .ok data') ↔
      EndFits data (start + buf.length) := by
  rw [overlay_eq, EndFits]
  split_ifs with hWraps hGrows
  · constructor
    · rintro ⟨_, ⟨⟩⟩
    · intro hFits
      exact absurd hFits.1 (not_lt.mpr hWraps)
  · constructor
    · rintro ⟨_, ⟨⟩⟩
    · intro hFits
      exact absurd hFits.2 (not_le.mpr hGrows)
  · exact iff_of_true ⟨_, rfl⟩
      ⟨not_le.mp hWraps, not_lt.mp hGrows⟩

/- A write to a file is one of its data. -/
theorem RamFs.write_of_isFile
    {fs : RamFs}
    {path : String}
    {attrs : Attrs}
    (hFile : fs.view.IsFile (components path) attrs)
    (offset : UInt64)
    (buffer : Bytes)
    (clock : Clock) :
    ((∃ r, fs.write path offset buffer clock = .ok r) ↔
        Inode.EndFits attrs.data
          (offset.toNat + buffer.length)) ∧
      ∀ fs' written,
        fs.write path offset buffer clock =
            .ok (fs', written) →
          written = some (UInt32.ofNat buffer.length) := by
  have hView := fs.view_write path offset buffer clock
  rw [FlatFs.write, if_neg hFile.below, hFile.node] at hView
  simp only at hView
  rw [← Inode.overlay_ok_iff]
  cases hOp : fs.write path offset buffer clock with
  | error cause =>
      rw [hOp] at hView
      refine ⟨?_, by rintro _ _ ⟨⟩⟩
      constructor
      · rintro ⟨_, ⟨⟩⟩
      · rintro ⟨data, hData⟩
        rw [hData] at hView
        cases hView
  | ok r =>
      rw [hOp] at hView
      rcases bind_eq_ok_iff.mp hView.symm with
        ⟨data, hData, hPair⟩
      refine ⟨iff_of_true ⟨r, rfl⟩ ⟨data, hData⟩, ?_⟩
      rintro fs' written ⟨⟩
      exact (pair_eq_of_ok_eq hPair).2.symm

namespace Server

variable (hasher : Hasher)

/-
  The event is a write request through a fid of this path,
  and its reply acknowledges the whole buffer.
-/
def Writes
    (srv : Server)
    (event : Event)
    (p : List String)
    (offset : Nat)
    (buffer : Bytes) : Prop :=
  ∃ conn tag body clock fids fid state start count,
    event = .request conn TWRITE tag body clock ∧
      srv.conns conn = some fids ∧
      fids.lookup fid = some state ∧
      components state.path = p ∧
      Request.decode TWRITE body =
        .ok (.twrite fid start buffer) ∧
      start.toNat = offset ∧
      (Reply.rwrite count).frame tag =
        .ok (srv.sent hasher event) ∧
      count.toNat = buffer.length

/-
  The event is a write request through a fid of this path
  that is open for writing, and the lock is free.
-/
def MayWrite
    (srv : Server)
    (event : Event)
    (p : List String)
    (offset : Nat)
    (buffer : Bytes) : Prop :=
  ∃ clock state start mode,
    srv.AsksWrite event clock state start buffer ∧
      components state.path = p ∧
      start.toNat = offset ∧
      state.openMode = some mode ∧
      modeAllowsWrite mode = true ∧
      srv.poisoned = false

/-
  An event overlays the data of a file with a buffer, and
  touches no other node.
-/
structure WrittenBy
    (srv : Server)
    (event : Event)
    (p : List String)
    (attrs : Attrs)
    (offset : Nat)
    (buffer : Bytes)
    (attrs' : Attrs) : Prop where
  file : (srv.step hasher event).ramfs.view.IsFile p attrs'
  overlays :
    Overlays 0 attrs.data offset buffer attrs'.data
  others :
    ∀ q, q ≠ p →
      (srv.step hasher event).ramfs.view q =
        srv.ramfs.view q

variable {hasher} {srv : Server} {event : Event}
variable {p : List String} {offset : Nat} {buffer : Bytes}
variable {attrs : Attrs}

/- An acknowledged write to a file is an overlay. -/
theorem writtenBy_of_writes
    (hWrites : srv.Writes hasher event p offset buffer)
    (hFile : srv.ramfs.view.IsFile p attrs) :
    ∃ attrs',
      srv.WrittenBy hasher event p attrs offset buffer
        attrs' := by
  rcases hWrites with
    ⟨conn, tag, body, clock, fids, fid, state, start, count,
      rfl, hConn, hFid, rfl, hDecode, rfl, hFrame, _⟩
  have hType :
      srv.replyType hasher
          (.request conn TWRITE tag body clock) =
        some RWRITE :=
    type_of_buildFrame hFrame
  rcases effect_of_replyType hConn hDecode hType with
    ⟨fids', reply, hReply, hEffect, _⟩
  have hView :
      (srv.step hasher
          (.request conn TWRITE tag body
            clock)).ramfs.view =
        srv.ramfs.view.assign (components state.path)
          { attrs with
            data :=
              Inode.splice attrs.data start.toNat buffer
            mtime := asSecs (clock 0) } := by
    generalize
      (srv.step hasher
        (.request conn TWRITE tag body clock)).ramfs = fs'
      at hEffect ⊢
    cases hEffect with
    | refused hRefusal =>
        cases hReply
    | write hFid' hMode hAllowed hOp =>
        cases hFid.symm.trans hFid'
        exact view_of_write hFile.below hFile.node hOp
  have hHere := congrFun hView (components state.path)
  rw [PathMap.assign, if_pos rfl] at hHere
  refine ⟨_, ⟨hFile.below, hHere, hFile.kind⟩,
    Inode.overlays_splice .., ?_⟩
  intro q hOther
  rw [hView, PathMap.assign, if_neg hOther]

/- Just the writes whose end fits are acknowledged. -/
theorem writes_iff
    (hFile : srv.ramfs.view.IsFile p attrs) :
    srv.Writes hasher event p offset buffer ↔
      srv.MayWrite event p offset buffer ∧
        Inode.EndFits attrs.data
          (offset + buffer.length) := by
  constructor
  · rintro ⟨conn, tag, body, clock, fids, fid, state, start,
      count, rfl, hConn, hFid, rfl, hDecode, rfl, hFrame, _⟩
    have hAsks :
        srv.AsksWrite (.request conn TWRITE tag body clock)
          clock state start buffer :=
      ⟨conn, tag, body, fids, fid, rfl, hConn, hFid, hDecode⟩
    rcases write_of_acknowledged hAsks
        (type_of_buildFrame hFrame) with
      ⟨hLock, mode, _, _, hMode, hAllowed, hOp, _⟩
    exact ⟨⟨clock, state, start, mode, hAsks, rfl, rfl, hMode,
        hAllowed, hLock⟩,
      (RamFs.write_of_isFile hFile start buffer
        clock).1.mp ⟨_, hOp⟩⟩
  · rintro ⟨⟨clock, state, start, mode, hAsks, rfl, rfl,
      hMode, hAllowed, hLock⟩, hFits⟩
    have hWrite :=
      RamFs.write_of_isFile hFile start buffer clock
    rcases hWrite.1.mpr hFits with ⟨r, hOp⟩
    have hReply :=
      @replyType_of_write hasher _ _ _ _ _ _ hLock hAsks _
        hMode hAllowed _ _ hOp
    rcases hAsks with
      ⟨conn, tag, body, fids, fid, rfl, hConn, hFid, hDecode⟩
    rcases effect_of_replyType hConn hDecode hReply with
      ⟨fids', reply, hType, hEffect, hFrame⟩
    generalize
      (srv.step hasher
        (.request conn TWRITE tag body clock)).ramfs = fs'
      at hEffect
    cases hEffect with
    | refused hRefusal =>
        cases hType
    | write hFid' hMode' hAllowed' hOp' =>
        cases hFid.symm.trans hFid'
        rw [hWrite.2 _ _ hOp', Option.getD_some] at hFrame
        exact ⟨conn, tag, body, clock, fids, fid, state,
          start, _, rfl, hConn, hFid, rfl, hDecode, rfl,
          hFrame,
          UInt32.toNat_ofNat_of_lt'
            (Request.length_buffer_of_decode hDecode)⟩

/- A write through a fid leaves every other one possible. -/
theorem mayWrite_step
    (hFile : srv.ramfs.view.IsFile p attrs)
    (hWrites : srv.Writes hasher event p offset buffer)
    (other : Event)
    (offset' : Nat)
    (buffer' : Bytes) :
    (srv.step hasher event).MayWrite other p offset'
        buffer' ↔
      srv.MayWrite other p offset' buffer' := by
  rcases (writes_iff hFile).mp hWrites with
    ⟨⟨clock, state, start, mode, hAsks, _⟩, _⟩
  rcases hWrites with
    ⟨conn, tag, body, clock', fids, fid, state', start',
      count, rfl, hConn, hFid, rfl, hDecode, rfl, hFrame, _⟩
  rw [step_of_acknowledged hAsks (type_of_buildFrame hFrame)]
  rfl

/-
  Of two acknowledged writes to a file the second would be
  acknowledged before the first, and the first after it.
-/
theorem writes_of_swapped
    (hFile : srv.ramfs.view.IsFile p attrs)
    {other : Event}
    {offset' : Nat}
    {buffer' : Bytes}
    (hFirst : srv.Writes hasher event p offset buffer)
    (hThen :
      (srv.step hasher event).Writes hasher other p offset'
        buffer') :
    srv.Writes hasher other p offset' buffer' ∧
      (srv.step hasher other).Writes hasher event p offset
        buffer := by
  rcases writtenBy_of_writes hFirst hFile with
    ⟨mid₁, hMid₁⟩
  have hFits := ((writes_iff hFile).mp hFirst).2
  rcases (writes_iff hMid₁.file).mp hThen with
    ⟨hMay, hFits'⟩
  rw [mayWrite_step hFile hFirst] at hMay
  have hLength := hMid₁.overlays.length
  have hSecond :
      srv.Writes hasher other p offset' buffer' := by
    refine (writes_iff hFile).mpr ⟨hMay, hFits'.1, ?_⟩
    have hEnd := hFits.2
    have hEnd' := hFits'.2
    omega
  rcases writtenBy_of_writes hSecond hFile with
    ⟨mid₂, hMid₂⟩
  have hLength' := hMid₂.overlays.length
  refine ⟨hSecond, (writes_iff hMid₂.file).mpr ⟨?_, ?_⟩⟩
  · rw [mayWrite_step hFile hSecond]
    exact ((writes_iff hFile).mp hFirst).1
  · refine ⟨hFits.1, ?_⟩
    have hEnd := hFits.2
    omega

/- Writes to disjoint ranges of a file may be swapped. -/
theorem data_of_swapped_writes
    (hFile : srv.ramfs.view.IsFile p attrs)
    {other : Event}
    {offset' : Nat}
    {buffer' : Bytes}
    (hDisjoint :
      offset + buffer.length ≤ offset' ∨
        offset' + buffer'.length ≤ offset)
    (hFirst : srv.Writes hasher event p offset buffer)
    (hThen :
      (srv.step hasher event).Writes hasher other p offset'
        buffer') :
    ∃ end₁ end₂,
      ((srv.step hasher event).step hasher
          other).ramfs.view p = some end₁ ∧
        ((srv.step hasher other).step hasher
          event).ramfs.view p = some end₂ ∧
        end₁.data = end₂.data := by
  rcases writes_of_swapped hFile hFirst hThen with
    ⟨hSecond, hLast⟩
  rcases writtenBy_of_writes hFirst hFile with
    ⟨mid₁, hMid₁⟩
  rcases writtenBy_of_writes hThen hMid₁.file with
    ⟨end₁, hEnd₁⟩
  rcases writtenBy_of_writes hSecond hFile with
    ⟨mid₂, hMid₂⟩
  rcases writtenBy_of_writes hLast hMid₂.file with
    ⟨end₂, hEnd₂⟩
  refine ⟨end₁, end₂, hEnd₁.file.node, hEnd₂.file.node, ?_⟩
  exact Overlays.comm hDisjoint hMid₁.overlays
    hEnd₁.overlays hMid₂.overlays hEnd₂.overlays

/-
  In every state, an acknowledged write to a file overlays
  its data and touches nothing else.  While the node stays
  so, a read through any open fid of the file is answered
  with its window of the new data just when the lock is not
  poisoned, the end of the read does not overflow and the
  chunk fits a frame.  Of two acknowledged writes to disjoint
  ranges each is acknowledged in the other order too, and the
  data are the same.
-/
theorem write_overlays
    (hWrites : srv.Writes hasher event p offset buffer)
    (hFile : srv.ramfs.view.IsFile p attrs) :
    ∃ attrs',
      srv.WrittenBy hasher event p attrs offset buffer
          attrs' ∧
        (∀ (later : List Event) (srv' : Server) (conn : Nat)
            (fid : UInt32) (path : String) (body : Bytes)
            (start' : UInt64) (count : UInt32)
            (tag : UInt16) (clock : Clock),
          Run.final (step hasher) srv (event :: later) =
              srv' →
            srv'.ramfs.view p = some attrs' →
            srv'.OpenForRead conn fid path →
            components path = p →
            Request.decode TREAD body =
              .ok (.tread fid start' count) →
            (srv'.readReply hasher
                (.request conn TREAD tag body clock) =
              some ((attrs'.data.drop start'.toNat).take
                count.toNat) ↔
            srv'.poisoned = false ∧
              start'.toNat + count.toNat < 2 ^ 64 ∧
              min count.toNat
                  (attrs'.data.length - start'.toNat) <
                2 ^ 32 - 11)) ∧
        ∀ (other : Event) (offset' : Nat) (buffer' : Bytes),
          offset + buffer.length ≤ offset' ∨
              offset' + buffer'.length ≤ offset →
            (srv.step hasher event).Writes hasher other p
              offset' buffer' →
            srv.Writes hasher other p offset' buffer' ∧
              (srv.step hasher other).Writes hasher event p
                offset buffer ∧
              ∃ end₁ end₂,
                ((srv.step hasher event).step hasher
                    other).ramfs.view p = some end₁ ∧
                  ((srv.step hasher other).step hasher
                    event).ramfs.view p = some end₂ ∧
                  end₁.data = end₂.data := by
  rcases writtenBy_of_writes hWrites hFile with
    ⟨attrs', hWritten⟩
  refine ⟨attrs', hWritten, ?_, ?_⟩
  · intro later srv' conn fid path body start' count tag
      clock _ hNode hOpen hPath hDecode
    have hHere :
        srv'.ramfs.view.IsFile (components path) attrs' := by
      rw [hPath]
      exact ⟨hFile.below, hNode, hWritten.file.kind⟩
    exact readReply_iff hOpen
      (readData_of_isFile hasher hHere) hDecode tag clock
  · intro other offset' buffer' hDisjoint hThen
    rcases writes_of_swapped hFile hWrites hThen with
      ⟨hSecond, hLast⟩
    exact ⟨hSecond, hLast,
      data_of_swapped_writes hFile hDisjoint hWrites hThen⟩

/- One client holds a file open for reading and writing. -/
def openedForBoth : List Event :=
  openedFile ++
    [.request 0 TOPEN 0 (encodeOpenBody 1 2) (fun _ => 0)]

theorem writes_of_openedForBoth :
    (Run.final (step (fun _ _ => 0))
      (start (RamFs.fresh 0)) openedForBoth).Writes
        (fun _ _ => 0)
        (.request 0 TWRITE 0 (encodeWriteBody 1 3 [7])
          (fun _ => 0)) ["a"] 3 [7] := by
  refine ⟨0, 0, _, _, [(0, .new "/" ⟨0x80, 0, 0⟩),
    (1, ⟨"/a", ⟨0, 0, 0⟩, some 2⟩)], 1,
    ⟨"/a", ⟨0, 0, 0⟩, some 2⟩, 3, 1, rfl, ?_⟩
  decide +kernel

theorem isFile_of_openedForBoth :
    (Run.final (step (fun _ _ => 0))
      (start (RamFs.fresh 0))
      openedForBoth).ramfs.view.IsFile ["a"]
        (freshAttrs "a" fileMode 0) :=
  ⟨by decide, by decide +kernel, by decide⟩

/- After the write the fid is still open for reading. -/
theorem openForRead_of_written :
    (Run.final (step (fun _ _ => 0))
      (Run.final (step (fun _ _ => 0))
        (start (RamFs.fresh 0)) openedForBoth)
      [.request 0 TWRITE 0 (encodeWriteBody 1 3 [7])
        (fun _ => 0)]).OpenForRead 0 1 "/a" :=
  ⟨[(0, .new "/" ⟨0x80, 0, 0⟩),
      (1, ⟨"/a", ⟨0, 0, 0⟩, some 2⟩)],
    ⟨"/a", ⟨0, 0, 0⟩, some 2⟩, 2, by decide +kernel, rfl,
    rfl, rfl, rfl⟩

/- The byte written past the end is read back. -/
theorem write_overlays_of_openedForBoth :
    ∃ attrs',
      (Run.final (step (fun _ _ => 0))
        (start (RamFs.fresh 0)) openedForBoth).WrittenBy
          (fun _ _ => 0)
          (.request 0 TWRITE 0 (encodeWriteBody 1 3 [7])
            (fun _ => 0))
          ["a"] (freshAttrs "a" fileMode 0) 3 [7] attrs' ∧
        (Run.final (step (fun _ _ => 0))
          (Run.final (step (fun _ _ => 0))
            (start (RamFs.fresh 0)) openedForBoth)
          [.request 0 TWRITE 0 (encodeWriteBody 1 3 [7])
            (fun _ => 0)]).readReply (fun _ _ => 0)
            (.request 0 TREAD 0 (encodeReadBody 1 2 5)
              (fun _ => 0)) =
          some ((attrs'.data.drop 2).take 5) := by
  rcases write_overlays writes_of_openedForBoth
    isFile_of_openedForBoth with
    ⟨attrs', hWritten, hReads, _⟩
  refine ⟨attrs', hWritten, ?_⟩
  apply (hReads [] _ 0 1 "/a" _ 2 5 0 (fun _ => 0) rfl
    hWritten.file.node openForRead_of_written (by decide)
    (by decide)).mpr
  refine ⟨by decide +kernel, by decide, ?_⟩
  exact (min_le_left _ _).trans_lt (by decide)

/- A read at the last offset overflows. -/
theorem not_read_back_of_lastOffset :
    ¬ ∀ (hasher : Hasher) (srv : Server) (event : Event)
        (p : List String) (offset : Nat) (buffer : Bytes)
        (attrs : Attrs),
      srv.Writes hasher event p offset buffer →
        srv.ramfs.view.IsFile p attrs →
        ∃ attrs',
          srv.WrittenBy hasher event p attrs offset buffer
              attrs' ∧
            ∀ (conn : Nat) (fid : UInt32) (path : String)
                (start' : UInt64) (count : UInt32),
              (Run.final (step hasher) srv
                  [event]).OpenForRead conn fid path →
                components path = p →
                (Run.final (step hasher) srv
                    [event]).readReply hasher
                  (.request conn TREAD 0
                    (encodeReadBody fid start' count)
                    (fun _ => 0)) =
                  some ((attrs'.data.drop start'.toNat).take
                    count.toNat) := by
  intro hAlways
  rcases hAlways _ _ _ _ _ _ _ writes_of_openedForBoth
    isFile_of_openedForBoth with
    ⟨attrs', _, hReads⟩
  have hRead :=
    hReads 0 1 "/a" 0xffffffffffffffff 1
      openForRead_of_written (by decide)
  have hNone :
      (Run.final (step (fun _ _ => 0))
        (Run.final (step (fun _ _ => 0))
          (start (RamFs.fresh 0)) openedForBoth)
        [.request 0 TWRITE 0 (encodeWriteBody 1 3 [7])
          (fun _ => 0)]).readReply (fun _ _ => 0)
          (.request 0 TREAD 0
            (encodeReadBody 1 0xffffffffffffffff 1)
            (fun _ => 0)) = none := by
    decide +kernel
  cases hNone.symm.trans hRead

end Server

end Planten
