import Planten.RamFs.Writes

/-
  What the reply to a write request says of the write.

  The handler turns a write that stores nothing into a count
  of zero, so the reply tells the truth just when the fid is
  not open for writing or there is a node below the root at
  its path.

  Key definitions include:
    * `Server.WriteKept`, `Server.WriteReaches`

  Key theorems include:
    * `Server.writeKept_iff`
    * `Server.acknowledged_iff_stored`
-/

------------------------------------------------------------
-- Truthful Replies
------------------------------------------------------------

namespace Planten

namespace Server

variable (hasher : Hasher)

/-
  A write request is answered truthfully: an acknowledgement
  counts the whole buffer, which is then stored at the path,
  and a write that stores nothing is refused.
-/
structure WriteKept
    (srv : Server)
    (event : Event)
    (clock : Clock)
    (path : String)
    (offset : UInt64)
    (buffer : Bytes) : Prop where
  stored :
    srv.replyType hasher event = some RWRITE →
      ∃ tag count attrs,
        (Reply.rwrite count).frame tag =
            .ok (srv.sent hasher event) ∧
          count.toNat = buffer.length ∧
          (srv.step hasher event).ramfs.view
            (components path) = some attrs ∧
          (attrs.data.drop offset.toNat).take
            buffer.length = buffer
  refused :
    srv.poisoned = false →
      ∀ fs, srv.ramfs.write path offset buffer clock =
        .ok (fs, none) →
          srv.replyType hasher event = some RERROR

/-
  A write request finds a node below the root, if its fid is
  open for writing.
-/
def WriteReaches
    (srv : Server)
    (state : FidState) : Prop :=
  ∀ mode,
    srv.poisoned = false →
      state.openMode = some mode →
      modeAllowsWrite mode = true →
        components state.path ≠ [] ∧
          srv.ramfs.view (components state.path) ≠ none

end Server

end Planten

------------------------------------------------------------
-- Replies to Write Requests
------------------------------------------------------------

namespace Planten

/- A write stores nothing where there is no node to write. -/
theorem RamFs.write_eq_none_iff
    (fs : RamFs)
    (path : String)
    (offset : UInt64)
    (buffer : Bytes)
    (clock : Clock) :
    (∃ fs',
      fs.write path offset buffer clock =
        .ok (fs', none)) ↔
      components path = [] ∨
        fs.view (components path) = none := by
  have hView := fs.view_write path offset buffer clock
  constructor
  · rintro ⟨fs', hNone⟩
    have hFlat := RamFs.viewResult_ok hNone hView
    by_contra hNode
    rw [not_or] at hNode
    rcases Option.ne_none_iff_exists'.mp hNode.2 with
      ⟨attrs, hAttrs⟩
    rw [FlatFs.write, if_neg hNode.1, hAttrs] at hFlat
    simp only at hFlat
    rw [bind_eq_ok_iff] at hFlat
    rcases hFlat with ⟨data, _, hFlat⟩
    cases (pair_eq_of_ok_eq hFlat).2
  · intro hNode
    have hFlat :
        fs.view.write (components path) offset buffer
            clock = .ok (fs.view, none) := by
      unfold FlatFs.write
      rcases hNode with hNil | hNone
      · rw [if_pos hNil]
      · split
        · rfl
        · rw [hNone]
    rw [hFlat] at hView
    cases hOp : fs.write path offset buffer clock with
    | error cause =>
        rw [hOp] at hView
        cases hView
    | ok r =>
        rw [hOp] at hView
        exact ⟨r.1,
          congrArg Except.ok
            (Prod.ext rfl (pair_eq_of_ok_eq hView).2)⟩

namespace Server

variable {hasher : Hasher} {srv : Server} {event : Event}
variable {clock : Clock} {state : FidState}
variable {offset : UInt64} {buffer : Bytes}

/- A write of a fid that is not open for it is refused. -/
theorem replyType_of_not_open
    (hLock : srv.poisoned = false)
    (hAsks : srv.AsksWrite event clock state offset buffer)
    (hDenied :
      ∀ mode, state.openMode = some mode →
        modeAllowsWrite mode ≠ true) :
    srv.replyType hasher event = some RERROR := by
  rcases @served_of_asksWrite hasher _ _ _ _ _ _ hLock hAsks
    (fun mode _ hMode hAllowed _ =>
      hDenied mode hMode hAllowed) with
    ⟨fids, fid, fs', fids', reply, hFid, hEffect, hType⟩
  rw [hType]
  cases hEffect with
  | refused hRefusal =>
      rfl
  | write hFid' hMode' hAllowed' hOp' =>
      cases hFid.symm.trans hFid'
      exact (hDenied _ hMode' hAllowed').elim

/-
  A write request is answered truthfully just when it finds
  a node, if its fid is open for writing.
-/
theorem writeKept_iff
    (hAsks :
      srv.AsksWrite event clock state offset buffer) :
    srv.WriteKept hasher event clock state.path offset
        buffer ↔
      srv.WriteReaches state := by
  constructor
  · intro hKept mode hLock hMode hAllowed
    by_contra hNode
    have hNone :=
      (srv.ramfs.write_eq_none_iff state.path offset buffer
        clock).mpr (by
          rw [not_and_or, not_not, not_not] at hNode
          exact hNode)
    rcases hNone with ⟨fs, hOp⟩
    have hAck :=
      @replyType_of_write hasher _ _ _ _ _ _ hLock hAsks _
        hMode hAllowed _ _ hOp
    have hRefused := hKept.refused hLock fs hOp
    cases hAck.symm.trans hRefused
  · intro hReaches
    constructor
    · intro hReply
      rcases write_of_acknowledged hAsks hReply with
        ⟨hLock, mode, tag, written, hMode, hAllowed, hOp,
          hFrame⟩
      rcases hReaches mode hLock hMode hAllowed with
        ⟨hBelow, hNode⟩
      rcases Option.ne_none_iff_exists'.mp hNode with
        ⟨attrs, hAttrs⟩
      have hView := view_of_write hBelow hAttrs hOp
      have hHere := congrFun hView (components state.path)
      rw [PathMap.assign, if_pos rfl] at hHere
      refine ⟨tag, _, _, hFrame, ?_, hHere, ?_⟩
      · have hFlat :=
          RamFs.viewResult_ok hOp
            (srv.ramfs.view_write state.path offset buffer
              clock)
        rw [FlatFs.write, if_neg hBelow, hAttrs] at hFlat
        simp only at hFlat
        rw [bind_eq_ok_iff] at hFlat
        rcases hFlat with ⟨data, _, hFlat⟩
        rw [← (pair_eq_of_ok_eq hFlat).2, Option.getD_some]
        rcases hAsks with
          ⟨_, _, _, _, _, _, _, _, hDecode⟩
        exact UInt32.toNat_ofNat_of_lt'
          (Request.length_buffer_of_decode hDecode)
      · exact (Inode.overlays_splice ..).take_drop
    · intro hLock fs hOp
      apply replyType_of_not_open hLock hAsks
      intro mode hMode hAllowed
      rcases hReaches mode hLock hMode hAllowed with
        ⟨hBelow, hNode⟩
      rcases (srv.ramfs.write_eq_none_iff state.path offset
        buffer clock).mp ⟨fs, hOp⟩ with hNil | hNone
      · exact hBelow hNil
      · exact hNode hNone

/-
  In every run of any clients, every write request is
  answered truthfully just when every write request finds a
  node, if its fid is open for writing; and so it is for each
  request alone, in any state.
-/
theorem acknowledged_iff_stored
    (hasher : Hasher)
    (fs : RamFs)
    (events : List Event) :
    (Run.Always (step hasher)
        (fun srv event =>
          ∀ clock state offset buffer,
            srv.AsksWrite event clock state offset buffer →
              srv.WriteKept hasher event clock state.path
                offset buffer)
        (start fs) events ↔
      Run.Always (step hasher)
        (fun srv event =>
          ∀ clock state offset buffer,
            srv.AsksWrite event clock state offset buffer →
              srv.WriteReaches state)
        (start fs) events) ∧
    ∀ srv event clock state offset buffer,
      AsksWrite srv event clock state offset buffer →
        (srv.WriteKept hasher event clock state.path offset
            buffer ↔
          srv.WriteReaches state) := by
  constructor
  · apply Run.always_congr
    intro srv event
    apply forall₄_congr
    intro clock state offset buffer
    exact forall_congr' writeKept_iff
  · intro srv event clock state offset buffer hAsks
    exact writeKept_iff hAsks

/-
  One client opens a file for writing, and another removes
  it.
-/
def removedUnderneath : List Event :=
  openedFile ++
    [.request 0 TOPEN 0 (encodeOpenBody 1 1) (fun _ => 0),
      .accept 1,
      .request 1 TATTACH 0 (encodeAttachBody 0 none "" "")
        (fun _ => 0),
      .request 1 TWALK 0 (encodeWalkBody 0 1 ["a"])
        (fun _ => 0),
      .request 1 TREMOVE 0 (encodeRemoveBody 1)
        (fun _ => 0)]

/- The write of the first client is acknowledged. -/
theorem not_stored_of_removedUnderneath :
    ¬ ∀ (hasher : Hasher) (fs : RamFs) (events : List Event)
        (event : Event) (clock : Clock) (state : FidState)
        (offset : UInt64) (buffer : Bytes),
      (Run.final (step hasher) (start fs) events).AsksWrite
          event clock state offset buffer →
        0 < buffer.length →
          (Run.final (step hasher) (start fs)
            events).WriteKept hasher event clock state.path
              offset buffer := by
  intro hAlways
  have hKept :=
    hAlways (fun _ _ => 0) (RamFs.fresh 0) removedUnderneath
      (.request 0 TWRITE 0 (encodeWriteBody 1 0 [7])
        (fun _ => 0)) (fun _ => 0)
      ⟨"/a", ⟨0, 0, 0⟩, some 1⟩ 0 [7]
      ⟨0, 0, _, [(0, .new "/" ⟨0x80, 0, 0⟩),
        (1, ⟨"/a", ⟨0, 0, 0⟩, some 1⟩)], 1, rfl,
        by decide +kernel⟩
      (by decide)
  rcases hKept.stored (by decide +kernel) with
    ⟨_, _, attrs, _, _, hNode, _⟩
  have hMissing :
      ((Run.final (step (fun _ _ => 0))
        (start (RamFs.fresh 0)) removedUnderneath).step
        (fun _ _ => 0)
        (.request 0 TWRITE 0 (encodeWriteBody 1 0 [7])
          (fun _ => 0))).ramfs.view (components "/a") =
        none := by
    decide +kernel
  cases hMissing.symm.trans hNode

end Server

end Planten
