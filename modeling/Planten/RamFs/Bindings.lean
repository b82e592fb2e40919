import Planten.RamFs.History

/-
  Fids that are bound again.

  Attach, walk and clone store the state of a fid without a
  look at what the table holds for it.  So a fid in use is
  bound as a free one is: what it stood for is replaced, and
  a fid stands for what it was last bound to, with or without
  a clunk in between.

  Key definitions include:
    * `Request.rebound?`
    * `SameAnswer`
    * `Connection.Binds`

  Key theorems include:
    * `handleMessage_of_erase`
    * `Connection.latest_binding`
    * `Connection.fid_rebinding`
-/

------------------------------------------------------------
-- Requests that Bind a Fid
------------------------------------------------------------

namespace Planten

/-
  The fid a request binds, when that is not the fid it starts
  from.
-/
def Request.rebound? : Request → Option UInt32
| tattach fid _ _ _ => some fid
| twalk fid newfid _ _ =>
    if newfid = fid then none else some newfid
| tclone fid newfid =>
    if newfid = fid then none else some newfid
| _ => none

/-
  Two sessions answer alike: with the same bytes, and with
  the same new state for one fid, or with an error and none.
-/
inductive SameAnswer
    (newfid : UInt32)
    (tag : UInt16)
    (s s' : Session) :
    EStateM.Result Fault Session Unit →
      EStateM.Result Fault Session Unit → Prop where
| failed {fault : Fault} :
    SameAnswer newfid tag s s' (.error fault s)
      (.error fault s')
| refused {body : Bytes} :
    SameAnswer newfid tag s s'
      (.ok ()
        { s with
          sent := s.sent ++ frameBytes RERROR tag body })
      (.ok ()
        { s' with
          sent := s'.sent ++ frameBytes RERROR tag body })
| bound
    {state : FidState} {msgType : UInt8} {body : Bytes}
    (hType : msgType ≠ RERROR) :
    SameAnswer newfid tag s s'
      (.ok ()
        { s with
          fids := KeyMap.insert newfid state s.fids
          sent := s.sent ++ frameBytes msgType tag body })
      (.ok ()
        { s' with
          fids := KeyMap.insert newfid state s'.fids
          sent := s'.sent ++ frameBytes msgType tag body })

/- The session with a fid taken out of its table. -/
def Session.free
    (s : Session)
    (fid : UInt32) : Session :=
  { s with fids := KeyMap.erase fid s.fids }

end Planten

------------------------------------------------------------
-- Handlers that Bind a Fid
------------------------------------------------------------

namespace Planten

variable {hasher : Hasher} {clock : Clock}
variable {tag : UInt16} {s : Session}
variable {fid newfid : UInt32} {body cursor rest : Bytes}

theorem run_sendResponse_of_small
    {reply : Reply}
    (hSmall : reply.Small)
    (tag : UInt16)
    (s : Session) :
    sendResponse reply.msgType tag reply.body s =
      .ok ()
        { s with
          sent :=
            s.sent ++
              frameBytes reply.msgType tag reply.body } := by
  rw [run_sendResponse, hSmall.frame tag]

theorem run_handleAttach
    {afid : UInt32}
    {uname aname : String}
    (hFields :
      attachFields.run body =
        .ok ((fid, afid, uname, aname), rest)) :
    handleAttach hasher tag body s =
      if s.poisoned then
        .error (.panic .poisonedLock) s
      else
        .ok ()
          { s with
            fids :=
              KeyMap.insert fid
                (FidState.new "/"
                  (qidFromInode hasher "/" s.ramfs.root))
                s.fids
            sent :=
              s.sent ++
                frameBytes RATTACH tag
                  (encodeQidBytes
                    (qidFromInode hasher "/"
                      s.ramfs.root)) } := by
  rw [handleAttach, run_bind, run_parse, hFields]
  simp only [run_bind]
  by_cases hLock : s.poisoned = true
  · rw [run_withLock_poisoned _ hLock, if_pos hLock]
  · have hRoot : s.ramfs.stat "/" = some s.ramfs.root := by
      rw [RamFs.stat, components_slash]
      rfl
    have hSmall :
        (Reply.rattach (qidFromInode hasher "/"
          s.ramfs.root)).Small :=
      small_of_fixed (by simp [Reply.body])
    rw [run_withLock _ (Bool.eq_false_of_not_eq_true hLock),
      if_neg hLock]
    simp only [run_bind, run_get, hRoot, run_pure]
    exact run_sendResponse_of_small hSmall tag _

theorem run_handleClone
    (hFields :
      cloneFields.run body = .ok ((fid, newfid), rest)) :
    handleClone tag body s =
      match s.fids.lookup fid with
      | none =>
          .ok ()
            { s with
              sent :=
                s.sent ++
                  frameBytes RERROR tag
                    (encodeString "unknown fid") }
      | some state =>
          .ok ()
            { s with
              fids := KeyMap.insert newfid state s.fids
              sent := s.sent ++ frameBytes RCLONE tag [] } := by
  rw [handleClone, run_bind, run_parse, hFields]
  simp only [run_bind, run_get]
  cases s.fids.lookup fid with
  | none =>
      exact run_sendError_of_short (by decide) tag s
  | some state =>
      have hSmall : Reply.rclone.Small :=
        small_of_fixed (by decide)
      exact run_sendResponse_of_small hSmall tag _

theorem run_handleWalk
    {nwname : UInt16}
    (hFields :
      walkFields.run body =
        .ok ((fid, newfid, nwname), cursor)) :
    handleWalk hasher tag body s =
      if s.poisoned then
        .error (.panic .poisonedLock) s
      else
        match walkNames hasher s.ramfs nwname.toNat cursor
          (walkBaseState hasher s.ramfs s.fids fid).path
          [] with
        | .error err => .error (.io err) s
        | .ok (.error message) =>
            .ok ()
              { s with
                sent :=
                  s.sent ++
                    frameBytes RERROR tag
                      (encodeString message) }
        | .ok (.ok (path, qids)) =>
            match walkTarget hasher s.ramfs path qids with
            | .error message =>
                .ok ()
                  { s with
                    sent :=
                      s.sent ++
                        frameBytes RERROR tag
                          (encodeString message) }
            | .ok newQid =>
                .ok ()
                  { s with
                    fids :=
                      KeyMap.insert newfid
                        (FidState.new path newQid) s.fids
                    sent :=
                      s.sent ++
                        frameBytes RWALK tag
                          (Reply.rwalk qids).body } := by
  rw [handleWalk, run_bind, run_parse, hFields]
  simp only
  by_cases hLock : s.poisoned = true
  · rw [run_walk_poisoned hasher tag s fid nwname cursor _
      hLock, if_pos hLock]
  · have hFree := Bool.eq_false_of_not_eq_true hLock
    rw [run_bind, run_walkBase hasher s hFree, if_neg hLock]
    simp only
    rw [run_bind, walkSteps, run_withLock _ hFree, run_bind,
      run_get]
    simp only
    cases hNames :
        walkNames hasher s.ramfs nwname.toNat cursor
          (walkBaseState hasher s.ramfs s.fids fid).path
          [] with
    | error err =>
        rfl
    | ok found =>
        cases found with
        | error message =>
            have hShort :=
              (short_walkNames hNames).trans_lt
                (by decide : 65570 < 2 ^ 19)
            simp only [run_bind,
              run_sendError_of_short hShort]
            rfl
        | ok r =>
            rcases r with ⟨path, qids⟩
            simp only
            cases hTarget :
                walkTarget hasher s.ramfs path qids with
            | error message =>
                have hShort :=
                  (short_walkTarget hTarget).trans_lt
                    (by decide : 64 < 2 ^ 19)
                simp only [run_bind,
                  run_sendError_of_short hShort]
                rfl
            | ok newQid =>
                have hCount := length_walkNames hNames
                have hLt := nwname.toNat_lt
                rw [List.length_nil] at hCount
                have hSmall : (Reply.rwalk qids).Small :=
                  small_rwalk (by omega)
                exact run_sendResponse_of_small hSmall tag _

end Planten

------------------------------------------------------------
-- A Fid in Use Is Bound like a Free One
------------------------------------------------------------

namespace Planten

variable {hasher : Hasher} {clock : Clock}
variable {tag : UInt16} {s : Session}
variable {fid newfid : UInt32} {body cursor rest : Bytes}

namespace Session

@[simp] theorem free_ramfs (s : Session) (fid : UInt32) :
    (s.free fid).ramfs = s.ramfs :=
  rfl

theorem lookup_free_of_ne
    (hOther : newfid ≠ fid) :
    (s.free newfid).fids.lookup fid = s.fids.lookup fid := by
  rw [free, KeyMap.lookup_erase, if_neg (Ne.symm hOther)]

end Session

theorem sameAnswer_handleAttach
    {afid : UInt32}
    {uname aname : String}
    (hFields :
      attachFields.run body =
        .ok ((fid, afid, uname, aname), rest)) :
    SameAnswer fid tag s (s.free fid)
      (handleAttach hasher tag body s)
      (handleAttach hasher tag body (s.free fid)) := by
  rw [run_handleAttach hFields, run_handleAttach hFields]
  by_cases hLock : s.poisoned = true
  · have hFree : (s.free fid).poisoned = true := hLock
    rw [if_pos hLock, if_pos hFree]
    exact .failed
  · have hFree : ¬ (s.free fid).poisoned = true := hLock
    rw [if_neg hLock, if_neg hFree]
    exact .bound (by decide)

theorem sameAnswer_handleClone
    (hOther : newfid ≠ fid)
    (hFields :
      cloneFields.run body = .ok ((fid, newfid), rest)) :
    SameAnswer newfid tag s (s.free newfid)
      (handleClone tag body s)
      (handleClone tag body (s.free newfid)) := by
  rw [run_handleClone hFields, run_handleClone hFields,
    Session.lookup_free_of_ne hOther]
  cases s.fids.lookup fid with
  | none =>
      exact .refused
  | some state =>
      exact .bound (by decide)

theorem sameAnswer_handleWalk
    {nwname : UInt16}
    (hOther : newfid ≠ fid)
    (hFields :
      walkFields.run body =
        .ok ((fid, newfid, nwname), cursor)) :
    SameAnswer newfid tag s (s.free newfid)
      (handleWalk hasher tag body s)
      (handleWalk hasher tag body (s.free newfid)) := by
  have hBase :
      walkBaseState hasher s.ramfs (s.free newfid).fids fid =
        walkBaseState hasher s.ramfs s.fids fid := by
    rw [walkBaseState, walkBaseState,
      Session.lookup_free_of_ne hOther]
  rw [run_handleWalk hFields, run_handleWalk hFields]
  by_cases hLock : s.poisoned = true
  · have hFree : (s.free newfid).poisoned = true := hLock
    rw [if_pos hLock, if_pos hFree]
    exact .failed
  · have hFree : ¬ (s.free newfid).poisoned = true := hLock
    rw [if_neg hLock, if_neg hFree]
    simp only [Session.free_ramfs, hBase]
    cases walkNames hasher s.ramfs nwname.toNat cursor
        (walkBaseState hasher s.ramfs s.fids fid).path [] with
    | error err =>
        exact .failed
    | ok found =>
        cases found with
        | error message =>
            exact .refused
        | ok r =>
            rcases r with ⟨path, qids⟩
            simp only
            cases walkTarget hasher s.ramfs path qids with
            | error message =>
                exact .refused
            | ok newQid =>
                exact .bound (by decide)

/-
  A request that binds a fid is answered as if the table held
  nothing for that fid.
-/
theorem handleMessage_of_erase
    {msgType : UInt8}
    {req : Request}
    (hDecode : Request.decode msgType body = .ok req)
    (hRebound : req.rebound? = some newfid) :
    SameAnswer newfid tag s (s.free newfid)
      (handleMessage hasher clock msgType tag body s)
      (handleMessage hasher clock msgType tag body
        (s.free newfid)) := by
  cases req with
  | tattach fid afid uname aname =>
      cases hRebound
      cases msgType_of_decode hDecode rfl
      rcases ok_of_map_ok hDecode with ⟨r, hFields, hReq⟩
      cases hReq
      exact sameAnswer_handleAttach hFields
  | twalk fid newfid' nwname names =>
      simp only [Request.rebound?] at hRebound
      split_ifs at hRebound with hSame
      cases hRebound
      cases msgType_of_decode hDecode rfl
      rcases ok_of_map_ok hDecode with ⟨r, hFields, hReq⟩
      cases hReq
      exact sameAnswer_handleWalk hSame hFields
  | tclone fid newfid' =>
      simp only [Request.rebound?] at hRebound
      split_ifs at hRebound with hSame
      cases hRebound
      cases msgType_of_decode hDecode rfl
      rcases ok_of_map_ok hDecode with ⟨r, hFields, hReq⟩
      cases hReq
      exact sameAnswer_handleClone hSame hFields
  | _ =>
      cases hRebound

end Planten

------------------------------------------------------------
-- Bindings along a Run
------------------------------------------------------------

namespace Planten

namespace Connection

variable (hasher : Hasher)

/- The visit binds the fid. -/
def Binds
    (conn : Connection)
    (visit : Visit)
    (fid : UInt32) : Prop :=
  ∃ req t,
    visit.decode = .ok req ∧
      req.boundFid? = some fid ∧
      conn.replyType hasher visit = some t ∧ t ≠ RERROR

/-
  A visit that binds a fid does to a table what it does to
  the table without that fid: it ends the connection, is
  refused and changes nothing, or stores the same new state.
-/
inductive AsIfFree
    (fids : FidTable)
    (visit : Visit)
    (newfid : UInt32) : Prop where
| ends
    (hStep : step hasher (some fids) visit = none)
    (hFree :
      step hasher (some (KeyMap.erase newfid fids)) visit =
        none)
| refused
    (hType :
      replyType hasher (some fids) visit = some RERROR)
    (hStep : step hasher (some fids) visit = some fids)
    (hFree :
      step hasher (some (KeyMap.erase newfid fids)) visit =
        some (KeyMap.erase newfid fids))
| bound
    {t : UInt8} {state : FidState}
    (hType : replyType hasher (some fids) visit = some t)
    (hAnswers : t ≠ RERROR)
    (hStep :
      step hasher (some fids) visit =
        some (KeyMap.insert newfid state fids))
    (hFree :
      step hasher (some (KeyMap.erase newfid fids)) visit =
        some (KeyMap.insert newfid state
          (KeyMap.erase newfid fids)))

variable {hasher} {visit : Visit} {req : Request}
variable {fids : FidTable} {fid newfid : UInt32}

theorem type_of_frameBytes
    (msgType : UInt8)
    (tag : UInt16)
    (body : Bytes) :
    (frameBytes msgType tag body)[4]? = some msgType := by
  rw [frameBytes, List.getElem?_append_right (by simp)]
  simp

/- Whether the fid is in use makes no difference. -/
theorem asIfFree_of_rebound
    (hDecode : visit.decode = .ok req)
    (hRebound : req.rebound? = some newfid)
    (fids : FidTable) :
    sent hasher (some fids) visit =
        sent hasher (some (KeyMap.erase newfid fids)) visit ∧
      leaves hasher (some fids) visit = visit.ramfs ∧
      AsIfFree hasher fids visit newfid := by
  have hSame :=
    @handleMessage_of_erase hasher visit.clock visit.tag
      (session visit fids) newfid visit.body visit.msgType
      req hDecode hRebound
  have hUsed :
      handle hasher (some fids) visit =
        some (handleMessage hasher visit.clock visit.msgType
          visit.tag visit.body (session visit fids)) :=
    rfl
  have hFree :
      handle hasher (some (KeyMap.erase newfid fids)) visit =
        some (handleMessage hasher visit.clock visit.msgType
          visit.tag visit.body
          ((session visit fids).free newfid)) :=
    rfl
  revert hSame
  generalize
    handleMessage hasher visit.clock visit.msgType visit.tag
      visit.body (session visit fids) = result at hUsed ⊢
  generalize
    handleMessage hasher visit.clock visit.msgType visit.tag
      visit.body ((session visit fids).free newfid) =
        result' at hFree ⊢
  intro hSame
  cases hSame with
  | failed =>
      refine ⟨?_, ?_, .ends ?_ ?_⟩
      · rw [sent, sent, hUsed, hFree]
      · rw [leaves, hUsed]
        rfl
      · rw [step, hUsed]
      · rw [step, hFree]
  | refused =>
      refine ⟨?_, ?_, .refused ?_ ?_ ?_⟩
      · rw [sent, sent, hUsed, hFree]
        rfl
      · rw [leaves, hUsed]
        rfl
      · rw [replyType, sent, hUsed]
        exact type_of_frameBytes _ _ _
      · rw [step, hUsed]
        rfl
      · rw [step, hFree]
        rfl
  | bound hType =>
      rename_i state t body
      have hStep :
          step hasher (some fids) visit =
            some (KeyMap.insert newfid state fids) := by
        rw [step, hUsed]
        rfl
      refine ⟨?_, ?_, .bound ?_ hType hStep ?_⟩
      · rw [sent, sent, hUsed, hFree]
        rfl
      · rw [leaves, hUsed]
        rfl
      · rw [replyType, sent, hUsed]
        exact type_of_frameBytes _ _ _
      · rw [step, hFree]
        rfl

/-
  A fid of the table stands for the path that it was last
  bound to.
-/
theorem latest_binding
    {visits : List Visit}
    {state : FidState}
    (hFid : (run hasher visits).fidState fid = some state) :
    ∃ pre visit post bound,
      visits = pre ++ visit :: post ∧
        (run hasher pre).Binds hasher visit fid ∧
        (run hasher (pre ++ [visit])).fidState fid =
          some bound ∧
        bound.path = state.path ∧
        Run.Always (step hasher)
          (fun conn later => ¬ conn.Binds hasher later fid)
          (run hasher (pre ++ [visit])) post := by
  induction visits using List.reverseRecOn
    generalizing state with
  | nil =>
      cases hFid
  | append_singleton visits visit ih =>
      by_cases hBinds :
          (run hasher visits).Binds hasher visit fid
      · exact ⟨visits, visit, [], state, rfl, hBinds, hFid,
          rfl, trivial⟩
      · rw [run_concat] at hFid
        cases hStep : (run hasher visits).step hasher visit with
        | none =>
            rw [hStep] at hFid
            cases hFid
        | some fids' =>
            rw [hStep] at hFid
            rcases effect_of_step hStep with
              ⟨fids, req, reply, hConn, hDecode, hEffect,
                hReply⟩
            have hBefore :
                ∃ before,
                  fids.lookup fid = some before ∧
                    before.path = state.path := by
              refine hEffect.path_of_lookup ?_ hFid
              intro hBound
              by_contra hNot
              exact hBinds
                ⟨req, _, hDecode, hBound, hReply, hNot⟩
            rcases hBefore with ⟨before, hFound, hPath⟩
            rw [← fidState_some, ← hConn] at hFound
            rcases ih hFound with
              ⟨pre, first, post, bound, rfl, hFirst, hHere,
                hSame, hQuiet⟩
            refine ⟨pre, first, post ++ [visit], bound, ?_,
              hFirst, hHere, hSame.trans hPath, ?_⟩
            · rw [List.append_assoc, List.cons_append]
            · apply (Run.always_append (step hasher) post
                [visit]).mpr
              rw [run_append_cons] at hBinds
              exact ⟨hQuiet, hBinds, trivial⟩

/-
  In every run of a connection a fid in use is bound as a
  free one is, and every fid stands for the path it was last
  bound to.
-/
theorem fid_rebinding
    (hasher : Hasher)
    (visits : List Visit) :
    (∀ fids visit req newfid,
      run hasher visits = some fids →
        visit.decode = .ok req →
          req.rebound? = some newfid →
            sent hasher (some fids) visit =
                sent hasher
                  (some (KeyMap.erase newfid fids)) visit ∧
              leaves hasher (some fids) visit =
                visit.ramfs ∧
              AsIfFree hasher fids visit newfid) ∧
    ∀ fid state,
      (run hasher visits).fidState fid = some state →
        ∃ pre visit post bound,
          visits = pre ++ visit :: post ∧
            (run hasher pre).Binds hasher visit fid ∧
            (run hasher (pre ++ [visit])).fidState fid =
              some bound ∧
            bound.path = state.path ∧
            Run.Always (step hasher)
              (fun conn later =>
                ¬ conn.Binds hasher later fid)
              (run hasher (pre ++ [visit])) post := by
  constructor
  · intro fids visit req newfid _ hDecode hRebound
    exact asIfFree_of_rebound hDecode hRebound fids
  · intro fid state hFid
    exact latest_binding hFid

/-
  A client opens a file through fid 1 and walks to the root
  with the same fid: the walk is answered, and the fid stands
  for the root, not open.
-/
theorem rebound_of_openedFile :
    ¬ ∀ (hasher : Hasher) (visits : List Visit)
        (visit : Visit) (req : Request) (newfid : UInt32),
      visit.decode = .ok req →
        req.rebound? = some newfid →
          ((run hasher visits).fidState newfid).isSome →
            (run hasher visits).replyType hasher visit =
                some RERROR ∧
              (run hasher visits).step hasher visit =
                run hasher visits := by
  intro hAlways
  have hFalse :=
    hAlways (fun _ _ => 0) (openingVisits 0)
      (fileVisit TWALK (encodeWalkBody 0 1 []))
      (.twalk 0 1 0 []) 1 (by decide +kernel) (by decide)
      (by decide +kernel)
  exact absurd hFalse.1 (by decide +kernel)

end Connection

end Planten
