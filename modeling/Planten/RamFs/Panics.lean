import Planten.RamFs.Sizes
import Planten.RamFs.FidPaths

/-
  Which requests panic.

  While the lock is not poisoned, a request panics exactly
  when its numbers overflow: the end of a read beyond the
  address space, a read reply whose size does not fit a
  `u32`, the end of a write or a new length beyond what a
  vector holds, or a clock from before the epoch when a node
  is created.

  Key definitions include:
    * `Request.Overflows`
    * `Server.Overflows`

  Key theorems include:
    * `Hazard.overflows`
    * `Request.Overflows.hazard`
    * `Server.panics_iff_overflows`
    * `Server.no_panic_iff_no_overflow`
-/

------------------------------------------------------------
-- Overflowing Requests
------------------------------------------------------------

namespace Planten

variable (hasher : Hasher) (clock : Clock)

/-
  A request whose numbers overflow in the state it is
  handled in.
-/
inductive Request.Overflows
    (fs : RamFs)
    (fids : FidTable) : Request → Prop where
| create
    {fid : UInt32} {name : String} {perm : UInt32}
    {mode : UInt8} {state : FidState} {newPath : String}
    (hFid : fids.lookup fid = some state)
    (hStep : resolveStep state.path name = some newPath)
    (hFresh : fs.view (components newPath) = none)
    (hEpoch :
      fs.view.CreatesBeforeEpoch clock
        (components newPath)) :
    Overflows fs fids (.tcreate fid name perm mode)
| readEnd
    {fid : UInt32} {offset : UInt64} {count : UInt32}
    {state : FidState} {mode : UInt8} {data : Bytes}
    (hFid : fids.lookup fid = some state)
    (hMode : state.openMode = some mode)
    (hAllowed : modeAllowsRead mode = true)
    (hData : readData hasher fs state.path = .ok data)
    (hEnd : 2 ^ 64 ≤ offset.toNat + count.toNat) :
    Overflows fs fids (.tread fid offset count)
| readSize
    {fid : UInt32} {offset : UInt64} {count : UInt32}
    {state : FidState} {mode : UInt8} {data : Bytes}
    (hFid : fids.lookup fid = some state)
    (hMode : state.openMode = some mode)
    (hAllowed : modeAllowsRead mode = true)
    (hData : readData hasher fs state.path = .ok data)
    (hLow :
      2 ^ 32 - 11 ≤
        min count.toNat (data.length - offset.toNat))
    (hHigh :
      min count.toNat (data.length - offset.toNat) ≤
        2 ^ 32 - 5) :
    Overflows fs fids (.tread fid offset count)
| write
    {fid : UInt32} {offset : UInt64} {buffer : Bytes}
    {state : FidState} {mode : UInt8}
    (hFid : fids.lookup fid = some state)
    (hMode : state.openMode = some mode)
    (hAllowed : modeAllowsWrite mode = true)
    (hNonempty : components state.path ≠ [])
    (hNode : (fs.view (components state.path)).isSome)
    (hEnd : isizeMax < offset.toNat + buffer.length) :
    Overflows fs fids (.twrite fid offset buffer)
| wstat
    {fid : UInt32} {record rest : Bytes}
    {state : FidState} {stat : Stat}
    (hFid : fids.lookup fid = some state)
    (hRecord : decodeStat.run record = .ok (stat, rest))
    (hNonempty : components state.path ≠ [])
    (hNode : (fs.view (components state.path)).isSome)
    (hAsked : stat.length ≠ 0xffffffffffffffff)
    (hLength : isizeMax < stat.length.toNat) :
    Overflows fs fids (.twstat fid record)

end Planten

------------------------------------------------------------
-- Failing Operations
------------------------------------------------------------

namespace Planten

/- A read takes its chunk, or its end overflows. -/
theorem readWindow_eq
    (data : Bytes)
    (offset : UInt64)
    (count : UInt32) :
    readWindow .dev data offset count =
      if 2 ^ 64 ≤ offset.toNat + count.toNat then
        .error .addOverflow
      else
        .ok ((data.drop offset.toNat).take count.toNat) := by
  by_cases hWraps : 2 ^ 64 ≤ offset.toNat + count.toNat
  · have hAdd :
        usizeAdd .dev offset.toNat count.toNat =
          .error .addOverflow :=
      if_neg (not_lt.mpr hWraps)
    simp only [readWindow]
    rw [if_pos hWraps, hAdd]
    rfl
  · rw [if_neg hWraps]
    exact readWindow_of_fits (not_le.mp hWraps) .dev data

/- A write into a node fails when its end does not fit. -/
theorem Inode.overlay_eq_error_iff
    {data buf : Bytes}
    {start : Nat}
    (hFits : data.length ≤ isizeMax) :
    (∃ cause, overlay data start buf = .error cause) ↔
      isizeMax < start + buf.length := by
  have hMax : isizeMax < 2 ^ 64 := by
    decide
  rw [overlay_eq]
  constructor
  · rintro ⟨cause, hError⟩
    split at hError
    · omega
    · split at hError
      · omega
      · cases hError
  · intro hEnd
    by_cases hWraps : 2 ^ 64 ≤ start + buf.length
    · exact ⟨_, if_pos hWraps⟩
    · rw [if_neg hWraps, if_pos (by omega)]
      exact ⟨_, rfl⟩

/- A stat fails when it asks for too great a length. -/
theorem Inode.applyStat_eq_error_iff
    {stat : Stat}
    {attrs : Attrs}
    (hFits : attrs.data.length ≤ isizeMax) :
    (∃ cause, applyStat stat attrs = .error cause) ↔
      stat.length ≠ 0xffffffffffffffff ∧
        isizeMax < stat.length.toNat := by
  constructor
  · rintro ⟨cause, hError⟩
    rw [applyStat, bind_eq_error_iff] at hError
    rcases hError with hError | ⟨data, _, hError⟩
    · unfold statData resize at hError
      split_ifs at hError with hAsked hShort hLong
      exact ⟨hAsked, not_le.mp hLong⟩
    · cases hError
  · rintro ⟨hAsked, hLength⟩
    refine ⟨.capacityOverflow, ?_⟩
    rw [applyStat, bind_eq_error_iff]
    left
    rw [statData, if_pos hAsked, resize,
      if_neg (by omega), if_neg (by omega)]

end Planten

------------------------------------------------------------
-- Failing Operations on the Map
------------------------------------------------------------

namespace Planten

/- A stat on the map fails when its fields do. -/
theorem FlatFs.wstatFromStat_eq_error_iff
    {m : FlatFs}
    {p : List String}
    {stat : Stat}
    {attrs : Attrs}
    {cause : Panic}
    (hNonempty : p ≠ [])
    (hNode : m p = some attrs) :
    m.wstatFromStat p stat = .error cause ↔
      Inode.applyStat stat attrs = .error cause := by
  unfold wstatFromStat
  rw [hNode, List.getLast?_eq_some_getLast hNonempty]
  simp only
  rw [bind_eq_error_iff]
  constructor
  · rintro (hError | ⟨attrs', _, hError⟩)
    · exact hError
    · split at hError
      · split at hError
        · cases hError
        · cases hError
      · cases hError
  · intro hError
    exact Or.inl hError

namespace RamFs

theorem viewResult_eq_error_iff
    {β : Type}
    {r : Except Panic (RamFs × β)}
    {cause : Panic} :
    viewResult r = .error cause ↔ r = .error cause := by
  cases r with
  | error e =>
      simp [viewResult, Except.map]
  | ok r =>
      constructor
      · intro hEq
        cases hEq
      · intro hEq
        cases hEq

theorem write_eq_error_iff
    {fs : RamFs}
    (hFits : fs.view.Forall (fun _ attrs => attrs.SizesFit))
    (path : String)
    (offset : UInt64)
    (buf : Bytes)
    (clock : Clock) :
    (∃ cause,
      fs.write path offset buf clock = .error cause) ↔
      components path ≠ [] ∧
        (fs.view (components path)).isSome ∧
        isizeMax < offset.toNat + buf.length := by
  simp only [← @viewResult_eq_error_iff _ (fs.write _ _ _ _),
    view_write, FlatFs.write]
  by_cases hNil : components path = []
  · simp [hNil]
  · rw [if_neg hNil]
    cases hNode : fs.view (components path) with
    | none =>
        simp
    | some attrs =>
        have hOverlay :=
          @Inode.overlay_eq_error_iff attrs.data buf
            offset.toNat (hFits _ _ hNode).data
        simp [bind_eq_error_iff, hOverlay, hNil]

theorem wstatFromStat_eq_error_iff
    {fs : RamFs}
    (hFits : fs.view.Forall (fun _ attrs => attrs.SizesFit))
    (path : String)
    (stat : Stat) :
    (∃ cause, fs.wstatFromStat path stat = .error cause) ↔
      components path ≠ [] ∧
        (fs.view (components path)).isSome ∧
        stat.length ≠ 0xffffffffffffffff ∧
        isizeMax < stat.length.toNat := by
  simp only [
    ← @viewResult_eq_error_iff _ (fs.wstatFromStat _ _),
    view_wstatFromStat]
  by_cases hNil : components path = []
  · simp [FlatFs.wstatFromStat, hNil, view_nil]
  · cases hNode : fs.view (components path) with
    | none =>
        simp [FlatFs.wstatFromStat, hNode]
    | some attrs =>
        have hApply :=
          @Inode.applyStat_eq_error_iff stat attrs
            (hFits _ _ hNode).data
        simp only [
          FlatFs.wstatFromStat_eq_error_iff hNil hNode]
        rw [hApply]
        simp [hNil]

theorem createNode_eq_error_iff
    {clock : Clock}
    {fs : RamFs}
    {path : String}
    (perm : UInt32)
    (hFresh : fs.view (components path) = none) :
    (∃ cause, createNode clock fs path perm = .error cause) ↔
      fs.view.CreatesBeforeEpoch clock (components path) := by
  simp only [
    ← @viewResult_eq_error_iff _ (createNode _ _ _ _),
    viewResult_createNode perm hFresh]
  constructor
  · rintro ⟨cause, hError⟩
    split at hError
    · assumption
    · cases hError
  · intro hEpoch
    exact ⟨_, if_pos hEpoch⟩

end RamFs

end Planten

------------------------------------------------------------
-- Hazards Are Overflows
------------------------------------------------------------

namespace Planten

variable {hasher : Hasher} {clock : Clock}
variable {tag : UInt16} {s : Session} {req : Request}

/- Without a poisoned lock only overflows are hazards. -/
theorem Hazard.overflows
    {cause : Panic}
    {poisons : Bool}
    (hFits :
      s.ramfs.view.Forall (fun _ attrs => attrs.SizesFit))
    (hLock : s.poisoned = false)
    (hHazard : Hazard hasher clock tag s req cause poisons) :
    req.Overflows hasher clock s.ramfs s.fids := by
  cases hHazard with
  | poisonedLock hPoisoned =>
      exact absurd (hLock.symm.trans hPoisoned)
        Bool.false_ne_true
  | create hFid hStep hFresh hOp =>
      have hNone :=
        (s.ramfs.stat_eq_none_iff _).mp hFresh
      exact .create hFid hStep hNone
        ((RamFs.createNode_eq_error_iff _ hNone).mp
          ⟨cause, hOp⟩)
  | readWindow hFid hMode hAllowed hData hWindow =>
      rw [readWindow_eq] at hWindow
      split at hWindow
      · exact .readEnd hFid hMode hAllowed hData ‹_›
      · cases hWindow
  | readFrame hFid hMode hAllowed hData hWindow hFrame =>
      rw [readWindow_eq] at hWindow
      split at hWindow
      · cases hWindow
      · cases hWindow
        rw [frame_rread_eq_error_iff] at hFrame
        exact .readSize hFid hMode hAllowed hData
          hFrame.1.1 hFrame.1.2
  | write hFid hMode hAllowed hOp =>
      rcases (RamFs.write_eq_error_iff hFits _ _ _ _).mp
        ⟨cause, hOp⟩ with
        ⟨hNonempty, hNode, hEnd⟩
      exact .write hFid hMode hAllowed hNonempty hNode hEnd
  | wstat hFid hRecord hOp =>
      rcases (RamFs.wstatFromStat_eq_error_iff hFits _ _).mp
        ⟨cause, hOp⟩ with
        ⟨hNonempty, hNode, hAsked, hLength⟩
      exact .wstat hFid hRecord hNonempty hNode hAsked
        hLength
  | statFrame hFid hStat hFrame =>
      rename_i fid state inode
      have hFit := hFits _ _ (RamFs.view_of_stat hStat)
      have hSmall :=
        length_encodeStatPayload_of_fit hasher state.path
          hFit
      have hBody :
          7 + (Reply.rstat
            (inodeToStat hasher state.path
              inode)).body.length < 2 ^ 32 := by
        simp only [Reply.body]
        omega
      rw [Reply.frame_of_fits hBody] at hFrame
      cases hFrame

/- An overflow is a hazard. -/
theorem Request.Overflows.hazard
    (tag : UInt16)
    (hFits :
      s.ramfs.view.Forall (fun _ attrs => attrs.SizesFit))
    (hOverflows :
      req.Overflows hasher clock s.ramfs s.fids) :
    ∃ cause poisons,
      Hazard hasher clock tag s req cause poisons := by
  cases hOverflows with
  | create hFid hStep hFresh hEpoch =>
      rename_i fid name perm mode state newPath
      rcases (RamFs.createNode_eq_error_iff perm hFresh).mpr
        hEpoch with
        ⟨cause, hOp⟩
      exact ⟨_, _, .create hFid hStep
        ((s.ramfs.stat_eq_none_iff _).mpr hFresh) hOp⟩
  | readEnd hFid hMode hAllowed hData hEnd =>
      exact ⟨_, _, .readWindow hFid hMode hAllowed hData
        ((readWindow_eq _ _ _).trans (if_pos hEnd))⟩
  | readSize hFid hMode hAllowed hData hLow hHigh =>
      rename_i fid offset count state mode data
      by_cases hEnd :
          2 ^ 64 ≤ offset.toNat + count.toNat
      · exact ⟨_, _, .readWindow hFid hMode hAllowed hData
          ((readWindow_eq _ _ _).trans (if_pos hEnd))⟩
      · have hFrame :=
          (@frame_rread_eq_error_iff data offset count tag
            _).mpr ⟨⟨hLow, hHigh⟩, rfl⟩
        exact ⟨_, _, .readFrame hFid hMode hAllowed hData
          ((readWindow_eq _ _ _).trans (if_neg hEnd))
          hFrame⟩
  | write hFid hMode hAllowed hNonempty hNode hEnd =>
      rcases (RamFs.write_eq_error_iff hFits _ _ _
        clock).mpr ⟨hNonempty, hNode, hEnd⟩ with
        ⟨cause, hOp⟩
      exact ⟨_, _, .write hFid hMode hAllowed hOp⟩
  | wstat hFid hRecord hNonempty hNode hAsked hLength =>
      rcases (RamFs.wstatFromStat_eq_error_iff hFits _
        _).mpr ⟨hNonempty, hNode, hAsked, hLength⟩ with
        ⟨cause, hOp⟩
      exact ⟨_, _, .wstat hFid hRecord hOp⟩

end Planten

------------------------------------------------------------
-- Hazards Are Not Answered
------------------------------------------------------------

namespace Planten

variable {hasher : Hasher} {clock : Clock}
variable {tag : UInt16} {s : Session} {req : Request}
variable {cause : Panic} {poisons : Bool}

/- The fid of a request that runs into a hazard is bound. -/
theorem Hazard.lookup_ne_none
    {fid : UInt32}
    (hLock : s.poisoned = false)
    (hHazard : Hazard hasher clock tag s req cause poisons)
    (hSource : req.sourceFid? = some fid) :
    s.fids.lookup fid ≠ none := by
  cases hHazard with
  | poisonedLock hPoisoned =>
      exact absurd (hLock.symm.trans hPoisoned)
        Bool.false_ne_true
  | create hFid hStep hFresh hOp
  | readWindow hFid hMode hAllowed hData hWindow
  | readFrame hFid hMode hAllowed hData hWindow hFrame
  | write hFid hMode hAllowed hOp
  | wstat hFid hRecord hOp
  | statFrame hFid hStat hFrame =>
      cases hSource
      rw [hFid]
      exact Option.some_ne_none _

/- Such a request is not refused. -/
theorem Hazard.not_refused
    (hLock : s.poisoned = false)
    (hHazard : Hazard hasher clock tag s req cause poisons)
    (message : String) :
    ¬ Refusal hasher s.ramfs s.fids req message := by
  intro hRefusal
  have hBound := @hHazard.lookup_ne_none
  cases hHazard with
  | poisonedLock hPoisoned =>
      rw [hLock] at hPoisoned
      cases hPoisoned
  | create hFid hStep hFresh hOp =>
      cases hRefusal with
      | unknownFid hSource hNone =>
          exact hBound _ hLock hSource hNone
      | createPath hFid' hStep' =>
          cases hFid.symm.trans hFid'
          cases hStep.symm.trans hStep'
      | createExists hFid' hStep' hExists =>
          cases hFid.symm.trans hFid'
          cases hStep.symm.trans hStep'
          rw [hFresh] at hExists
          cases hExists
  | readWindow hFid hMode hAllowed hData hWindow
  | readFrame hFid hMode hAllowed hData hWindow hFrame =>
      exact not_refused_read hFid hMode hAllowed hData _ _ _
        hRefusal
  | write hFid hMode hAllowed hOp =>
      exact not_refused_write hFid hMode hAllowed _ _ _
        hRefusal
  | wstat hFid hRecord hOp =>
      cases hRefusal with
      | unknownFid hSource hNone =>
          exact hBound _ hLock hSource hNone
      | wstatFormat hFid' hRecord' =>
          cases hRecord.symm.trans hRecord'
      | wstatFailed hFid' hRecord' hOp' =>
          cases hFid.symm.trans hFid'
          cases hRecord.symm.trans hRecord'
          cases hOp.symm.trans hOp'
  | statFrame hFid hStat hFrame =>
      cases hRefusal with
      | unknownFid hSource hNone =>
          exact hBound _ hLock hSource hNone
      | statMissing hFid' hNone =>
          cases hFid.symm.trans hFid'
          cases hStat.symm.trans hNone

/- Such a request is not answered. -/
theorem Hazard.not_served
    {fs' : RamFs}
    {fids' : FidTable}
    {reply : Reply}
    {frame : Bytes}
    (hLock : s.poisoned = false)
    (hHazard : Hazard hasher clock tag s req cause poisons)
    (hEffect :
      Effect hasher clock s.ramfs s.fids req fs' fids'
        reply) :
    reply.frame tag ≠ .ok frame := by
  intro hFrame
  have hAnswered := hHazard.not_refused hLock
  cases hHazard with
  | poisonedLock hPoisoned =>
      rw [hLock] at hPoisoned
      cases hPoisoned
  | create hFid hStep hFresh hOp =>
      cases hEffect with
      | refused hRefusal =>
          exact hAnswered _ hRefusal
      | create hFid' hStep' hFresh' hOp' hStat =>
          cases hFid.symm.trans hFid'
          cases hStep.symm.trans hStep'
          cases hOp.symm.trans hOp'
  | readWindow hFid hMode hAllowed hData hWindow =>
      cases hEffect with
      | refused hRefusal =>
          exact hAnswered _ hRefusal
      | read hFid' hMode' hAllowed' hData' hWindow' =>
          cases hFid.symm.trans hFid'
          cases hData.symm.trans hData'
          cases hWindow.symm.trans hWindow'
  | readFrame hFid hMode hAllowed hData hWindow hNoFrame =>
      cases hEffect with
      | refused hRefusal =>
          exact hAnswered _ hRefusal
      | read hFid' hMode' hAllowed' hData' hWindow' =>
          cases hFid.symm.trans hFid'
          cases hData.symm.trans hData'
          cases hWindow.symm.trans hWindow'
          cases hNoFrame.symm.trans hFrame
  | write hFid hMode hAllowed hOp =>
      cases hEffect with
      | refused hRefusal =>
          exact hAnswered _ hRefusal
      | write hFid' hMode' hAllowed' hOp' =>
          cases hFid.symm.trans hFid'
          cases hOp.symm.trans hOp'
  | wstat hFid hRecord hOp =>
      cases hEffect with
      | refused hRefusal =>
          exact hAnswered _ hRefusal
      | wstat hFid' hRecord' hOp' =>
          cases hFid.symm.trans hFid'
          cases hRecord.symm.trans hRecord'
          cases hOp.symm.trans hOp'
  | statFrame hFid hStat hNoFrame =>
      cases hEffect with
      | refused hRefusal =>
          exact hAnswered _ hRefusal
      | stat hFid' hStat' =>
          cases hFid.symm.trans hFid'
          cases hStat.symm.trans hStat'
          cases hNoFrame.symm.trans hFrame

/- Such a request is not a walk that ends its connection. -/
theorem Hazard.not_walk
    {fid newfid : UInt32}
    {nwname : UInt16}
    {names : Bytes}
    (hLock : s.poisoned = false) :
    ¬ Hazard hasher clock tag s
      (.twalk fid newfid nwname names) cause poisons := by
  intro hHazard
  cases hHazard with
  | poisonedLock hPoisoned =>
      rw [hLock] at hPoisoned
      cases hPoisoned

end Planten

------------------------------------------------------------
-- Panics along Runs
------------------------------------------------------------

namespace Planten

namespace Server

variable {hasher : Hasher}

instance Panics.decidable
    (srv : Server)
    (event : Event) :
    Decidable (srv.Panics hasher event) :=
  match hHandle : srv.handle hasher event with
  | some (.error (.panic cause) s) =>
      isTrue ⟨cause, s, hHandle⟩
  | some (.error (.io _) _) =>
      isFalse (fun ⟨_, _, hPanic⟩ =>
        nomatch hHandle.symm.trans hPanic)
  | some (.ok () _) =>
      isFalse (fun ⟨_, _, hPanic⟩ =>
        nomatch hHandle.symm.trans hPanic)
  | none =>
      isFalse (fun ⟨_, _, hPanic⟩ =>
        nomatch hHandle.symm.trans hPanic)

/- The event is a request that overflows. -/
def Overflows
    (hasher : Hasher)
    (srv : Server)
    (event : Event) : Prop :=
  ∃ clock fids req,
    srv.Asks event clock fids req ∧
      req.Overflows hasher clock srv.ramfs fids

/-
  While the lock is not poisoned, a request panics exactly
  when it overflows.
-/
theorem panics_iff_overflows
    {srv : Server}
    (hSizes : srv.SizesHold)
    (hLock : srv.poisoned = false)
    (event : Event) :
    srv.Panics hasher event ↔
      srv.Overflows hasher event := by
  constructor
  · rintro ⟨cause, s, hHandle⟩
    cases event with
    | accept conn | close conn =>
        cases hHandle
    | request conn msgType tag body clock =>
        cases hConn : srv.conns conn with
        | none =>
            rw [handle_of_closed hConn] at hHandle
            cases hHandle
        | some fids =>
            rw [handle_of_open hConn] at hHandle
            have hOutcome :=
              handleMessage_outcome hasher clock tag body
                (srv.session fids) msgType
            rw [Option.some.inj hHandle] at hOutcome
            generalize hDecode :
              Request.decode msgType body = decoded
              at hOutcome
            cases hOutcome with
            | panicked hHazard =>
                exact ⟨clock, fids, _,
                  ⟨_, _, _, _, rfl, hConn, hDecode⟩,
                  hHazard.overflows hSizes.attrs hLock⟩
  · rintro ⟨clock, fids, req, hAsks, hOverflows⟩
    rcases hAsks with
      ⟨conn, msgType, tag, body, rfl, hConn, hDecode⟩
    rcases Request.Overflows.hazard
      (s := srv.session fids) tag hSizes.attrs
        hOverflows with
      ⟨cause, poisons, hHazard⟩
    have hOutcome :=
      handleMessage_outcome hasher clock tag body
        (srv.session fids) msgType
    have hHandle :=
      handle_of_open hConn hasher msgType tag body clock
    rw [hDecode] at hOutcome
    generalize
      handleMessage hasher clock msgType tag body
        (srv.session fids) = result at hOutcome hHandle
    cases hOutcome with
    | badName hNames =>
        exact (Hazard.not_walk hLock hHazard).elim
    | served hEffect hFrame =>
        exact (hHazard.not_served hLock hEffect hFrame).elim
    | panicked hPanic =>
        exact ⟨_, _, hHandle⟩

/- An event that does not panic leaves the lock alone. -/
theorem poisoned_of_step
    {srv : Server}
    {event : Event}
    (hFinishes : ¬ srv.Panics hasher event) :
    (srv.step hasher event).poisoned = srv.poisoned := by
  rcases step_spec hasher srv event with ⟨reply, hStep, _⟩
  generalize srv.step hasher event = srv' at hStep ⊢
  cases hStep with
  | accepted | reopened | lost | closed | malformed
  | badName | served =>
      rfl
  | panicked hConn hDecode hHazard hPanics =>
      exact (hFinishes hPanics).elim

/-
  In every run, no request panics exactly when no request
  overflows, and then the lock is not poisoned.
-/
theorem no_panic_iff_no_overflow
    (hasher : Hasher)
    {now : SystemTime}
    {fs : RamFs}
    (hNew : RamFs.new now = .ok fs)
    (events : List Event) :
    (Run.Always (step hasher)
        (fun srv event => ¬ srv.Panics hasher event)
        (start fs) events ↔
      Run.Always (step hasher)
        (fun srv event => ¬ srv.Overflows hasher event)
        (start fs) events) ∧
    (Run.Always (step hasher)
        (fun srv event => ¬ srv.Overflows hasher event)
        (start fs) events →
      (Run.final (step hasher) (start fs) events).poisoned =
        false) := by
  have hStart :
      (start fs).SizesHold ∧ (start fs).poisoned = false :=
    ⟨sizesHold_start hNew, rfl⟩
  have hPanics :
      ∀ (srv : Server) (event : Event),
        srv.SizesHold ∧ srv.poisoned = false →
          ¬ srv.Panics hasher event →
            (srv.step hasher event).SizesHold ∧
              (srv.step hasher event).poisoned = false := by
    rintro srv event ⟨hSizes, hLock⟩ hFinishes
    rw [poisoned_of_step hFinishes]
    exact ⟨hSizes.step hasher event, hLock⟩
  have hOverflows :
      ∀ (srv : Server) (event : Event),
        srv.SizesHold ∧ srv.poisoned = false →
          ¬ srv.Overflows hasher event →
            (srv.step hasher event).SizesHold ∧
              (srv.step hasher event).poisoned = false := by
    intro srv event hInv hAvoid
    apply hPanics srv event hInv
    rwa [panics_iff_overflows hInv.1 hInv.2]
  refine ⟨⟨?_, ?_⟩, ?_⟩
  · apply Run.always_of_always _ hPanics ?_ hStart
    intro srv event hInv hFinishes
    rwa [← panics_iff_overflows hInv.1 hInv.2]
  · apply Run.always_of_always _ hOverflows ?_ hStart
    intro srv event hInv hAvoid
    rwa [panics_iff_overflows hInv.1 hInv.2]
  · intro hAvoids
    exact (Run.invariant_of_always _ hOverflows hStart
      hAvoids).2

/-
  One client creates a file, opens it for writing and writes
  one byte at a given offset.
-/
def oneByteWrite (offset : UInt64) : List Event :=
  openedFile ++
    [.request 0 TOPEN 0 (encodeOpenBody 1 1) (fun _ => 0),
      .request 0 TWRITE 0 (encodeWriteBody 1 offset [0])
        (fun _ => 0)]

theorem no_panic_of_oneByteWrite :
    (Run.final (step (fun _ _ => 0))
      (start (RamFs.fresh 0))
      (oneByteWrite 7)).poisoned = false := by
  have hRun :=
    no_panic_iff_no_overflow (fun _ _ => 0)
      (RamFs.new_eq_fresh (le_refl 0)) (oneByteWrite 7)
  exact hRun.2 (hRun.1.mp (by decide +kernel))

/-
  A write of one byte at the last offset overflows under the
  lock.
-/
theorem poisoned_of_oneByteWrite :
    ¬ ∀ (hasher : Hasher) (now : SystemTime) (fs : RamFs)
        (events : List Event),
      RamFs.new now = .ok fs →
        (Run.final (step hasher) (start fs)
          events).poisoned = false := by
  intro hNever
  have hFalse :=
    hNever (fun _ _ => 0) 0 (RamFs.fresh 0)
      (oneByteWrite 0xffffffffffffffff)
      (RamFs.new_eq_fresh (le_refl 0))
  exact absurd hFalse (by decide +kernel)

end Server

end Planten
