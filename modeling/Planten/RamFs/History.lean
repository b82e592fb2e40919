import Planten.RamFs.Connection
import Planten.RamFs.FidPaths

/-
  The fid table of a connection and the history of its fids.

  The open mode of a fid is that of the last open of it since
  it was bound.  A fid bound by an attach or a walk is not
  open, and a clone is open as its source was when it was
  cloned.  Reads and writes are answered by that mode.

  Key definitions include:
    * `Request.changedFid?`
    * `Request.binding?`
    * `Connection.HistoryMode`

  Key theorems include:
    * `Effect.lookup_of_unchanged`
    * `Effect.openMode_of_lookup`
    * `Connection.historyMode_iff`
    * `Connection.fid_history`
    * `Connection.write_needs_open`
-/

------------------------------------------------------------
-- Changes of the Fid Table
------------------------------------------------------------

namespace Planten

namespace Request

/- The fid whose entry in the table a request may change. -/
def changedFid? : Request → Option UInt32
| tattach fid _ _ _ => some fid
| twalk _ newfid _ _ => some newfid
| tclone _ newfid => some newfid
| topen fid _ => some fid
| tclunk fid => some fid
| tremove fid => some fid
| _ => none

/-
  The fid whose open mode a request sets, and the type of the
  reply that says it did.
-/
def binding? : Request → Option (UInt32 × UInt8)
| tattach fid _ _ _ => some (fid, RATTACH)
| twalk _ newfid _ _ => some (newfid, RWALK)
| tclone _ newfid => some (newfid, RCLONE)
| topen fid _ => some (fid, ROPEN)
| _ => none

/- The open mode such a request sets. -/
def modeSet
    (fids : FidTable) : Request → Option UInt8
| topen _ mode => some mode
| tclone fid _ => Connection.openMode (some fids) fid
| _ => none

/- A request that is refused sets no open mode. -/
theorem binding?_ne_of_rerror
    (req : Request)
    (fid : UInt32) :
    req.binding? ≠ some (fid, RERROR) := by
  intro hEq
  cases req with
  | tattach | twalk | tclone | topen =>
      exact absurd (Prod.mk.inj (Option.some.inj hEq)).2
        (by decide)
  | _ =>
      cases hEq

end Request

variable {hasher : Hasher} {clock : Clock}
variable {fs fs' : RamFs} {fids fids' : FidTable}
variable {req : Request} {reply : Reply} {fid : UInt32}

theorem lookup_insert_of_ne
    {fid₀ : UInt32}
    {state : FidState}
    (hOther : some fid₀ ≠ some fid) :
    (KeyMap.insert fid₀ state fids).lookup fid =
      fids.lookup fid := by
  rw [KeyMap.lookup_insert, if_neg]
  rintro rfl
  exact hOther rfl

theorem lookup_erase_of_ne
    {fid₀ : UInt32}
    (hOther : some fid₀ ≠ some fid) :
    (KeyMap.erase fid₀ fids).lookup fid =
      fids.lookup fid := by
  rw [KeyMap.lookup_erase, if_neg]
  rintro rfl
  exact hOther rfl

/- A request leaves the entries of all other fids alone. -/
theorem Effect.lookup_of_unchanged
    (hEffect : Effect hasher clock fs fids req fs' fids' reply)
    (hOther : req.changedFid? ≠ some fid) :
    fids'.lookup fid = fids.lookup fid := by
  cases hEffect with
  | attach | walk hNames hTarget | opened hFid hStat
  | clone hFid =>
      exact lookup_insert_of_ne hOther
  | clunk | remove hFid hOp | removeFailed hFid hOp =>
      exact lookup_erase_of_ne hOther
  | version | auth | flush
  | create hFid hStep hFresh hOp hStat
  | read hFid hMode hAllowed hData hWindow
  | write hFid hMode hAllowed hOp | stat hFid hStat
  | wstat hFid hRecord hOp | refused hRefusal =>
      rfl

/- An inserted state is the new one of its fid. -/
theorem insert_or_keeps
    {fid₀ : UInt32}
    {t : UInt8}
    {state state' : FidState}
    (hLookup :
      (KeyMap.insert fid₀ state fids).lookup fid =
        some state') :
    some (fid₀, t) = some (fid, t) ∧ state' = state ∨
      some (fid₀, t) ≠ some (fid, t) ∧
        fids.lookup fid = some state' := by
  rw [KeyMap.lookup_insert] at hLookup
  split at hLookup
  · rename_i hSame
    cases hLookup
    exact Or.inl ⟨by rw [hSame], rfl⟩
  · rename_i hOther
    refine Or.inr ⟨?_, hLookup⟩
    intro hEq
    exact hOther
      (congrArg Prod.fst (Option.some.inj hEq)).symm

theorem erase_keeps
    {fid₀ : UInt32}
    {state' : FidState}
    (hLookup :
      (KeyMap.erase fid₀ fids).lookup fid = some state') :
    fids.lookup fid = some state' := by
  rw [KeyMap.lookup_erase] at hLookup
  split at hLookup
  · cases hLookup
  · exact hLookup

/-
  A fid that is in the table after a request was given its
  open mode by it, or is as it was before.
-/
theorem Effect.openMode_of_lookup
    {state' : FidState}
    (hEffect : Effect hasher clock fs fids req fs' fids' reply)
    (hLookup : fids'.lookup fid = some state') :
    req.binding? = some (fid, reply.msgType) ∧
        state'.openMode = req.modeSet fids ∨
      req.binding? ≠ some (fid, reply.msgType) ∧
        fids.lookup fid = some state' := by
  cases hEffect with
  | attach | walk hNames hTarget | opened hFid hStat =>
      rcases insert_or_keeps hLookup with
        ⟨hBinds, rfl⟩ | hKeeps
      · exact Or.inl ⟨hBinds, rfl⟩
      · exact Or.inr hKeeps
  | clone hFid =>
      rcases insert_or_keeps hLookup with
        ⟨hBinds, rfl⟩ | hKeeps
      · exact Or.inl ⟨hBinds,
          (Connection.openMode_of_lookup hFid).symm⟩
      · exact Or.inr hKeeps
  | clunk | remove hFid hOp | removeFailed hFid hOp =>
      exact Or.inr ⟨by rintro ⟨⟩, erase_keeps hLookup⟩
  | refused hRefusal =>
      exact Or.inr
        ⟨req.binding?_ne_of_rerror fid, hLookup⟩
  | version | auth | flush
  | create hFid hStep hFresh hOp hStat
  | read hFid hMode hAllowed hData hWindow
  | write hFid hMode hAllowed hOp | stat hFid hStat
  | wstat hFid hRecord hOp =>
      exact Or.inr ⟨by rintro ⟨⟩, hLookup⟩

end Planten

------------------------------------------------------------
-- Open Modes along a Run
------------------------------------------------------------

namespace Planten

namespace Connection

variable (hasher : Hasher)

/- A connection after some visits, from its opening on. -/
def run (visits : List Visit) : Connection :=
  Run.final (step hasher) (some []) visits

/- The visit sets the open mode of the fid. -/
def Sets
    (conn : Connection)
    (visit : Visit)
    (fid : UInt32) : Prop :=
  ∃ req t,
    visit.decode = .ok req ∧
      req.binding? = some (fid, t) ∧
      conn.replyType hasher visit = some t

/-
  In these visits the fid stays in the table, and none of
  them sets its open mode.
-/
def Quiet
    (fid : UInt32)
    (conn : Connection)
    (visits : List Visit) : Prop :=
  Run.Always (step hasher)
    (fun conn visit =>
      (conn.fidState fid).isSome ∧
        ¬ conn.Sets hasher visit fid)
    conn visits

/-
  The open mode of a fid by the history of its connection:
  what the last visit that sets it makes it.
-/
inductive HistoryMode :
    List Visit → UInt32 → Option UInt8 → Prop where
| attached
    {pre post : List Visit} {visit : Visit}
    {fid afid : UInt32} {uname aname : String}
    (hDecode :
      visit.decode = .ok (.tattach fid afid uname aname))
    (hReply :
      (run hasher pre).replyType hasher visit =
        some RATTACH)
    (hQuiet :
      Quiet hasher fid (run hasher (pre ++ [visit])) post) :
    HistoryMode (pre ++ visit :: post) fid none
| walked
    {pre post : List Visit} {visit : Visit}
    {src fid : UInt32} {nwname : UInt16} {names : Bytes}
    (hDecode :
      visit.decode = .ok (.twalk src fid nwname names))
    (hReply :
      (run hasher pre).replyType hasher visit = some RWALK)
    (hQuiet :
      Quiet hasher fid (run hasher (pre ++ [visit])) post) :
    HistoryMode (pre ++ visit :: post) fid none
| opened
    {pre post : List Visit} {visit : Visit}
    {fid : UInt32} {mode : UInt8}
    (hDecode : visit.decode = .ok (.topen fid mode))
    (hReply :
      (run hasher pre).replyType hasher visit = some ROPEN)
    (hQuiet :
      Quiet hasher fid (run hasher (pre ++ [visit])) post) :
    HistoryMode (pre ++ visit :: post) fid (some mode)
| cloned
    {pre post : List Visit} {visit : Visit}
    {src fid : UInt32} {mode : Option UInt8}
    (hDecode : visit.decode = .ok (.tclone src fid))
    (hReply :
      (run hasher pre).replyType hasher visit =
        some RCLONE)
    (hSource : HistoryMode pre src mode)
    (hQuiet :
      Quiet hasher fid (run hasher (pre ++ [visit])) post) :
    HistoryMode (pre ++ visit :: post) fid mode

variable {hasher}

theorem run_concat
    (visits : List Visit)
    (visit : Visit) :
    run hasher (visits ++ [visit]) =
      (run hasher visits).step hasher visit :=
  Run.final_concat (step hasher) (some []) visits visit

theorem run_append_cons
    (pre post : List Visit)
    (visit : Visit) :
    run hasher (pre ++ visit :: post) =
      Run.final (step hasher) (run hasher (pre ++ [visit]))
        post := by
  rw [List.append_cons]
  exact Run.final_append (step hasher) _ _ _

/- A quiet visit more keeps the fid quiet. -/
theorem Quiet.concat
    {pre post : List Visit}
    {visit last : Visit}
    {fid : UInt32}
    (hQuiet :
      Quiet hasher fid (run hasher (pre ++ [visit])) post)
    (hSome :
      ((run hasher (pre ++ visit :: post)).fidState
        fid).isSome)
    (hNot :
      ¬ (run hasher (pre ++ visit :: post)).Sets hasher last
        fid) :
    Quiet hasher fid (run hasher (pre ++ [visit]))
      (post ++ [last]) := by
  rw [run_append_cons] at hSome hNot
  exact (Run.always_append (step hasher) post [last]).mpr
    ⟨hQuiet, ⟨hSome, hNot⟩, trivial⟩

/- A visit that sets no mode leaves the history's. -/
theorem HistoryMode.concat
    {visits : List Visit}
    {last : Visit}
    {fid : UInt32}
    {mode : Option UInt8}
    (hMode : HistoryMode hasher visits fid mode)
    (hSome : ((run hasher visits).fidState fid).isSome)
    (hNot : ¬ (run hasher visits).Sets hasher last fid) :
    HistoryMode hasher (visits ++ [last]) fid mode := by
  cases hMode with
  | attached hDecode hReply hQuiet =>
      rw [List.append_assoc, List.cons_append]
      exact .attached hDecode hReply
        (hQuiet.concat hSome hNot)
  | walked hDecode hReply hQuiet =>
      rw [List.append_assoc, List.cons_append]
      exact .walked hDecode hReply
        (hQuiet.concat hSome hNot)
  | opened hDecode hReply hQuiet =>
      rw [List.append_assoc, List.cons_append]
      exact .opened hDecode hReply
        (hQuiet.concat hSome hNot)
  | cloned hDecode hReply hSource hQuiet =>
      rw [List.append_assoc, List.cons_append]
      exact .cloned hDecode hReply hSource
        (hQuiet.concat hSome hNot)

/- A clone that is answered found its source. -/
theorem source_of_rclone
    {conn : Connection}
    {visit : Visit}
    {src fid : UInt32}
    (hDecode : visit.decode = .ok (.tclone src fid))
    (hReply : conn.replyType hasher visit = some RCLONE) :
    ∃ state, conn.fidState src = some state := by
  rcases effect_of_replyType hDecode hReply with
    ⟨fids, fids', reply, rfl, hType, hEffect, _⟩
  generalize leaves hasher (some fids) visit = fs'
    at hEffect
  cases hEffect with
  | clone hFid =>
      exact ⟨_, hFid⟩
  | refused hRefusal =>
      exact absurd (show RERROR = RCLONE from hType)
        (by decide)

/- A visit that sets a mode ends the history of its fid. -/
theorem historyMode_of_binding
    {visits : List Visit}
    {visit : Visit}
    {fids : FidTable}
    {req : Request}
    {t : UInt8}
    {fid : UInt32}
    {mode : Option UInt8}
    (hConn : run hasher visits = some fids)
    (hDecode : visit.decode = .ok req)
    (hReply :
      (run hasher visits).replyType hasher visit = some t)
    (hBinds : req.binding? = some (fid, t))
    (hSet : mode = req.modeSet fids)
    (hSources :
      ∀ {src : UInt32} {state : FidState},
        (run hasher visits).fidState src = some state →
          HistoryMode hasher visits src state.openMode) :
    HistoryMode hasher (visits ++ [visit]) fid mode := by
  cases req with
  | tattach fid' afid uname aname =>
      cases hBinds
      subst hSet
      exact .attached hDecode hReply trivial
  | twalk src newfid nwname names =>
      cases hBinds
      subst hSet
      exact .walked hDecode hReply trivial
  | topen fid' mode' =>
      cases hBinds
      subst hSet
      exact .opened hDecode hReply trivial
  | tclone src newfid =>
      cases hBinds
      subst hSet
      rcases source_of_rclone hDecode hReply with
        ⟨state, hSource⟩
      have hMode := hSources hSource
      rw [hConn] at hSource
      rw [Request.modeSet, openMode_of_lookup hSource]
      exact .cloned hDecode hReply hMode trivial
  | _ =>
      cases hBinds

/- A fid of the table is as open as its history says. -/
theorem historyMode_of_fidState
    {visits : List Visit}
    {fid : UInt32}
    {state : FidState}
    (hFid : (run hasher visits).fidState fid = some state) :
    HistoryMode hasher visits fid state.openMode := by
  induction visits using List.reverseRecOn
    generalizing fid state with
  | nil =>
      cases hFid
  | append_singleton visits visit ih =>
      rw [run_concat] at hFid
      cases hStep : (run hasher visits).step hasher visit with
      | none =>
          rw [hStep] at hFid
          cases hFid
      | some fids' =>
          rw [hStep] at hFid
          rcases effect_of_step hStep with
            ⟨fids, req, reply, hConn, hDecode, hEffect,
              hReply⟩
          rcases hEffect.openMode_of_lookup hFid with
            ⟨hBinds, hSet⟩ | ⟨hNot, hBefore⟩
          · exact historyMode_of_binding hConn hDecode
              hReply hBinds hSet ih
          · rw [← fidState_some, ← hConn] at hBefore
            apply (ih hBefore).concat
            · rw [hBefore]
              rfl
            · rintro ⟨req', t, hDecode', hBinds, hType⟩
              cases hDecode.symm.trans hDecode'
              cases hReply.symm.trans hType
              exact hNot hBinds

/- What a fid is left open as while nothing sets its mode. -/
theorem openMode_of_quiet
    {conn : Connection}
    {visits : List Visit}
    {fid : UInt32}
    {mode : Option UInt8}
    (hQuiet : Quiet hasher fid conn visits)
    (hHere :
      ∀ state,
        conn.fidState fid = some state →
          state.openMode = mode) :
    ∀ state,
      (Run.final (step hasher) conn visits).fidState fid =
          some state →
        state.openMode = mode := by
  refine @Run.invariant_of_always _ _ (step hasher) _
    (fun conn => ∀ state,
      conn.fidState fid = some state →
        state.openMode = mode)
    ?_ conn visits hHere hQuiet
  intro conn visit hHere hStill state hFid
  cases hStep : conn.step hasher visit with
  | none =>
      rw [hStep] at hFid
      cases hFid
  | some fids' =>
      rw [hStep] at hFid
      rcases effect_of_step hStep with
        ⟨fids, req, reply, rfl, hDecode, hEffect, hReply⟩
      rcases hEffect.openMode_of_lookup hFid with
        ⟨hBinds, _⟩ | ⟨_, hBefore⟩
      · exact (hStill.2
          ⟨req, _, hDecode, hBinds, hReply⟩).elim
      · exact hHere state hBefore

/- The visit that sets the mode of a fid leaves it so open. -/
theorem openMode_of_binding
    {pre post : List Visit}
    {visit : Visit}
    {req : Request}
    {t : UInt8}
    {fid : UInt32}
    {mode : Option UInt8}
    {state : FidState}
    (hDecode : visit.decode = .ok req)
    (hReply :
      (run hasher pre).replyType hasher visit = some t)
    (hBinds : req.binding? = some (fid, t))
    (hSet :
      ∀ fids,
        run hasher pre = some fids →
          req.modeSet fids = mode)
    (hQuiet :
      Quiet hasher fid (run hasher (pre ++ [visit])) post)
    (hFid :
      (run hasher (pre ++ visit :: post)).fidState fid =
        some state) :
    state.openMode = mode := by
  rw [run_append_cons] at hFid
  refine openMode_of_quiet hQuiet ?_ state hFid
  intro state' hFid'
  rw [run_concat] at hFid'
  rcases effect_of_replyType hDecode hReply with
    ⟨fids, fids', reply, hConn, rfl, hEffect, hStep⟩
  rw [hStep] at hFid'
  rcases hEffect.openMode_of_lookup hFid' with
    ⟨_, hMode⟩ | ⟨hNot, _⟩
  · rw [hMode]
    exact hSet fids hConn
  · exact (hNot hBinds).elim

/- The history of a fid says how it is open. -/
theorem openMode_of_historyMode
    {visits : List Visit}
    {fid : UInt32}
    {mode : Option UInt8}
    (hMode : HistoryMode hasher visits fid mode) :
    ∀ state,
      (run hasher visits).fidState fid = some state →
        state.openMode = mode := by
  induction hMode with
  | attached hDecode hReply hQuiet
  | walked hDecode hReply hQuiet
  | opened hDecode hReply hQuiet =>
      intro state hFid
      exact openMode_of_binding hDecode hReply rfl
        (fun _ _ => rfl) hQuiet hFid
  | cloned hDecode hReply hSource hQuiet ih =>
      intro state hFid
      apply openMode_of_binding hDecode hReply rfl _ hQuiet
        hFid
      intro fids hConn
      rcases source_of_rclone hDecode hReply with
        ⟨source, hFound⟩
      rw [← ih source hFound]
      rw [hConn] at hFound
      exact openMode_of_lookup hFound

/- The open mode of a fid of the table is its history's. -/
theorem historyMode_iff
    {visits : List Visit}
    {fid : UInt32}
    {state : FidState}
    (hFid : (run hasher visits).fidState fid = some state)
    (mode : Option UInt8) :
    HistoryMode hasher visits fid mode ↔
      state.openMode = mode := by
  constructor
  · intro hMode
    exact openMode_of_historyMode hMode state hFid
  · rintro rfl
    exact historyMode_of_fidState hFid

end Connection

end Planten

------------------------------------------------------------
-- Reads and Writes by the Open Mode
------------------------------------------------------------

namespace Planten

namespace Connection

variable {hasher : Hasher}

/-
  In every run of a connection, whatever happens to the file
  system in between, a request changes the entry of one fid
  at most, every fid is as open as its history says, and data
  is read only through a fid that is open for reading.
-/
theorem fid_history
    (hasher : Hasher)
    (visits : List Visit) :
    (∀ visit fids' fid,
      (run hasher visits).step hasher visit = some fids' →
        fidState (some fids') fid ≠
          (run hasher visits).fidState fid →
        ∃ req,
          visit.decode = .ok req ∧
            req.changedFid? = some fid) ∧
    (∀ fid state mode,
      (run hasher visits).fidState fid = some state →
        (HistoryMode hasher visits fid mode ↔
          state.openMode = mode)) ∧
    (∀ visit fid offset count,
      visit.decode = .ok (.tread fid offset count) →
        (run hasher visits).replyType hasher visit =
          some RREAD →
        ∃ mode,
          (run hasher visits).openMode fid = some mode ∧
            (mode &&& 0x3 = 0 ∨ mode &&& 0x3 = 2 ∨
              mode &&& 0x3 = 3)) := by
  refine ⟨?_, ?_, ?_⟩
  · intro visit fids' fid hStep hChanged
    rcases effect_of_step hStep with
      ⟨fids, req, reply, hConn, hDecode, hEffect, _⟩
    refine ⟨req, hDecode, ?_⟩
    by_contra hOther
    apply hChanged
    rw [hConn]
    exact hEffect.lookup_of_unchanged hOther
  · intro fid state mode hFid
    exact historyMode_iff hFid mode
  · intro visit fid offset count hDecode hReply
    rcases effect_of_replyType hDecode hReply with
      ⟨fids, fids', reply, hConn, hType, hEffect, _⟩
    generalize (run hasher visits).leaves hasher visit = fs'
      at hEffect
    rw [hConn]
    cases hEffect with
    | read hFid hMode hAllowed hData hWindow =>
        refine ⟨_, (openMode_of_lookup hFid).trans hMode, ?_⟩
        simpa only [modeAllowsRead, decide_eq_true_eq] using
          hAllowed
    | refused hRefusal =>
        exact absurd (show RERROR = RREAD from hType)
          (by decide)

/-
  A write is answered, or changes the file system, only
  through a fid whose last open, its own or one that it was
  cloned with, was for writing or for truncating.
-/
theorem write_needs_open
    (hasher : Hasher)
    (visits : List Visit)
    (visit : Visit)
    (fid : UInt32)
    (offset : UInt64)
    (buffer : Bytes)
    (hDecode :
      visit.decode = .ok (.twrite fid offset buffer))
    (hWrites :
      (run hasher visits).replyType hasher visit =
          some RWRITE ∨
        (run hasher visits).leaves hasher visit ≠
          visit.ramfs) :
    ∃ mode,
      HistoryMode hasher visits fid (some mode) ∧
        (mode &&& 0x3 = 1 ∨ mode &&& 0x3 = 2 ∨
          mode &&& 0x10 ≠ 0) := by
  rcases step_spec hasher (run hasher visits) visit with
    ⟨_, hSent, hLeaves⟩ |
      ⟨fids, req, fids', reply, hConn, hDecode', hEffect, _,
        hFrame⟩
  · rw [replyType, hSent, hLeaves] at hWrites
    rcases hWrites with hWrites | hWrites
    · cases hWrites
    · exact (hWrites rfl).elim
  · cases hDecode.symm.trans hDecode'
    rw [replyType, Server.type_of_buildFrame hFrame]
      at hWrites
    generalize (run hasher visits).leaves hasher visit = fs'
      at hEffect hWrites
    cases hEffect with
    | write hFid hMode hAllowed hOp =>
        have hState := fidState_of_lookup hConn hFid
        refine ⟨_, (historyMode_iff hState _).mpr hMode, ?_⟩
        simpa only [modeAllowsWrite, decide_eq_true_eq]
          using hAllowed
    | refused hRefusal =>
        rcases hWrites with hType | hChanges
        · exact absurd
            (show RERROR = RWRITE from
              Option.some.inj hType)
            (by decide)
        · exact (hChanges rfl).elim

/- The visits of a client that opens a new file. -/
def openingVisits (mode : UInt8) : List Visit :=
  Server.visits (fun _ _ => 0) 0
    (Server.start (RamFs.fresh 0))
    (openedFile ++
      [.request 0 TOPEN 0 (encodeOpenBody 1 mode)
        (fun _ => 0)])

/- A frame that finds the new file. -/
def fileVisit
    (msgType : UInt8)
    (body : Bytes) : Visit :=
  ⟨(Run.final (Server.step (fun _ _ => 0))
      (Server.start (RamFs.fresh 0)) openedFile).ramfs,
    false, msgType, 0, body, fun _ => 0⟩

/- A file that is open for writing is written to. -/
theorem write_needs_open_of_owrite :
    ∃ mode,
      HistoryMode (fun _ _ => 0) (openingVisits 1) 1
          (some mode) ∧
        (mode &&& 0x3 = 1 ∨ mode &&& 0x3 = 2 ∨
          mode &&& 0x10 ≠ 0) :=
  write_needs_open (fun _ _ => 0) (openingVisits 1)
    (fileVisit TWRITE (encodeWriteBody 1 0 [7])) 1 0 [7]
    (by decide) (Or.inl (by decide +kernel))

/-
  A file that is open for reading and truncating is written
  to, and one that is open for reading is changed by a wstat.
-/
theorem writes_without_owrite :
    (¬ ∀ hasher visits visit fid offset buffer,
      visit.decode = .ok (.twrite fid offset buffer) →
        (run hasher visits).replyType hasher visit =
            some RWRITE →
          ∃ mode,
            HistoryMode hasher visits fid (some mode) ∧
              (mode &&& 0x3 = 1 ∨ mode &&& 0x3 = 2)) ∧
    (run (fun _ _ => 0) (openingVisits 0)).openMode 1 =
        some 0 ∧
      ((run (fun _ _ => 0) (openingVisits 0)).leaves
          (fun _ _ => 0)
          (fileVisit TWSTAT
            (encodeWstatBody 1
              { renameStat "" with length := 4 }))).view
          ["a"] ≠
        (fileVisit TWSTAT []).ramfs.view ["a"] := by
  refine ⟨?_, by decide +kernel, by decide +kernel⟩
  intro hClaim
  rcases hClaim (fun _ _ => 0) (openingVisits 0x10)
    (fileVisit TWRITE (encodeWriteBody 1 0 [7])) 1 0 [7]
    (by decide) (by decide +kernel) with
    ⟨mode, hHistory, hMode⟩
  have hOpen :
      (run (fun _ _ => 0) (openingVisits 0x10)).openMode 1 =
        some 0x10 := by
    decide +kernel
  rcases Option.bind_eq_some_iff.mp hOpen with
    ⟨state, hFid, hState⟩
  have hEq := (historyMode_iff hFid _).mp hHistory
  cases hState.symm.trans hEq
  exact absurd hMode (by decide)

end Connection

end Planten
