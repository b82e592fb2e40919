import Planten.RamFs.Atomicity
import Planten.Services.Fids

/-
  Where the fids of a connection come from.

  A request that goes through a fid which is not in the table
  is refused, in every server and every state, with two
  exceptions: a walk from such a fid is not, and a clunk of
  it is answered as any other.  So every fid of the table
  descends, by walks and clones, from an attach or from a
  walk through a fid that was not in the table.

  Key definitions include:
    * `Service.Descends`
    * `Service.AttachRule`
    * `FileServer.Unreadable`

  Key theorems include:
    * `Service.FidLaw.descends`
    * `PseudoRequest.eofOrInvalid_of_decode`
    * `FileServer.unreadable_of_io`
    * `FileServer.attachRule`
-/

------------------------------------------------------------
-- Histories of Fids
------------------------------------------------------------

namespace Planten

namespace Service

variable (S : Service)

/-
  Where the fid of a connection comes from: the turn that
  bound it last is an attach, or a walk or a clone through a
  fid that was in the table and descends in turn, or a walk
  through a fid that was not.
-/
inductive Descends :
    List (ServiceTurn S.Env) → UInt32 → Prop where
| attach
    {turns : List (ServiceTurn S.Env)}
    {turn : ServiceTurn S.Env}
    {fids : FidTable} {fid : UInt32}
    (hRun : S.run turns = some fids)
    (hBinds : S.Binds fids turn none fid) :
    Descends (turns ++ [turn]) fid
| through
    {turns : List (ServiceTurn S.Env)}
    {turn : ServiceTurn S.Env}
    {fids : FidTable} {source fid : UInt32}
    (hRun : S.run turns = some fids)
    (hBinds : S.Binds fids turn (some source) fid)
    (hHolds : FidTable.Holds fids source)
    (hSource : Descends turns source) :
    Descends (turns ++ [turn]) fid
| unattached
    {turns : List (ServiceTurn S.Env)}
    {turn : ServiceTurn S.Env}
    {fids : FidTable} {source fid : UInt32}
    (hRun : S.run turns = some fids)
    (hBinds : S.Binds fids turn (some source) fid)
    (hNone : ¬ FidTable.Holds fids source)
    (hWalk : turn.msgType = TWALK) :
    Descends (turns ++ [turn]) fid
| kept
    {turns : List (ServiceTurn S.Env)}
    {turn : ServiceTurn S.Env}
    {fids : FidTable} {fid : UInt32}
    (hRun : S.run turns = some fids)
    (hHolds : FidTable.Holds fids fid)
    (hOther : ∀ source, ¬ S.Binds fids turn source fid)
    (hBefore : Descends turns fid) :
    Descends (turns ++ [turn]) fid

end Service

namespace Service.FidLaw

variable {S : Service}

/- Every fid of the table descends. -/
theorem descends
    (hLaw : S.FidLaw)
    {turns : List (ServiceTurn S.Env)}
    {fids : FidTable}
    {fid : UInt32}
    (hRun : S.run turns = some fids)
    (hHolds : FidTable.Holds fids fid) :
    S.Descends turns fid := by
  induction turns using List.reverseRecOn
    generalizing fids fid with
  | nil =>
      cases hRun
      cases hHolds
  | append_singleton turns turn ih =>
      rw [run, Run.final_concat] at hRun
      rcases answer_of_step hRun with
        ⟨before, frame, hBefore, hAnswer⟩
      by_cases hBinds :
          ∃ source, S.Binds before turn source fid
      · rcases hBinds with ⟨source, hBinds⟩
        cases source with
        | none =>
            exact .attach hBefore hBinds
        | some source =>
            by_cases hSource : FidTable.Holds before source
            · exact .through hBefore hBinds hSource
                (ih hBefore hSource)
            · exact .unattached hBefore hBinds hSource
                (hLaw.walk_of_binds hBinds hSource)
      · have hHere : FidTable.Holds before fid := by
          by_contra hNone
          exact hBinds (hLaw.adds before turn fid fids frame
            hAnswer hHolds hNone)
        exact .kept hBefore hHere
          (fun source hHas => hBinds ⟨source, hHas⟩)
          (ih hBefore hHere)

end Service.FidLaw

/- A fid that descends has an attach or a walk before it. -/
theorem Service.Descends.exists_turn
    {S : Service}
    {turns : List (ServiceTurn S.Env)}
    {fid : UInt32}
    (hDescends : S.Descends turns fid) :
    ∃ turn ∈ turns,
      turn.msgType = TATTACH ∨ turn.msgType = TWALK := by
  induction hDescends with
  | attach hRun hBinds =>
      refine ⟨_, List.mem_concat_self, ?_⟩
      have hBinding := hBinds.1
      unfold bindingFids? at hBinding
      split_ifs at hBinding with hAttach
      · exact Or.inl hAttach
      · cases hFields : cloneFields.run _ with
        | error err | ok r =>
            rw [hFields] at hBinding
            cases hBinding
  | unattached hRun hBinds hNone hWalk =>
      exact ⟨_, List.mem_concat_self, Or.inr hWalk⟩
  | through hRun hBinds hHolds hSource ih
  | kept hRun hHolds hOther hBefore ih =>
      rcases ih with ⟨turn, hMem, hType⟩
      exact ⟨turn, List.mem_append_left _ hMem, hType⟩

end Planten

------------------------------------------------------------
-- Unreadable Frames
------------------------------------------------------------

namespace Planten

namespace PseudoRequest

theorem failsIn_versionFields :
    Decoder.FailsIn versionFields
      (IoError.EofOrInvalid "invalid UTF-8 string") := by
  refine (failsIn_word _ 4 _).bind (fun msize => ?_)
  exact (failsIn_text _).bind
    (fun version => Decoder.failsIn_pure _)

theorem failsIn_attachFields :
    Decoder.FailsIn attachFields
      (IoError.EofOrInvalid "invalid UTF-8 string") := by
  refine (failsIn_word _ 4 _).bind (fun fid => ?_)
  refine (failsIn_word _ 4 _).bind (fun afid => ?_)
  refine (failsIn_text _).bind (fun uname => ?_)
  exact (failsIn_text _).bind
    (fun aname => Decoder.failsIn_pure _)

theorem failsIn_walkFields :
    Decoder.FailsIn walkFields
      (IoError.EofOrInvalid "invalid UTF-8 string") := by
  refine (failsIn_word _ 4 _).bind (fun fid => ?_)
  refine (failsIn_word _ 4 _).bind (fun newfid => ?_)
  refine (failsIn_word _ 2 _).bind (fun nwname => ?_)
  exact ((failsIn_text _).many _).bind
    (fun names => Decoder.failsIn_pure _)

theorem failsIn_readFields :
    Decoder.FailsIn readFields
      (IoError.EofOrInvalid "invalid UTF-8 string") := by
  refine (failsIn_word _ 4 _).bind (fun fid => ?_)
  refine (failsIn_word _ 8 _).bind (fun offset => ?_)
  exact (failsIn_word _ 4 _).bind
    (fun count => Decoder.failsIn_pure _)

/- Fields are unreadable if short or not UTF-8. -/
theorem eofOrInvalid_of_decode
    {msgType : UInt8}
    {body : Bytes}
    {err : IoError}
    (hDecode : decode msgType body = .error err) :
    err.EofOrInvalid "invalid UTF-8 string" := by
  revert hDecode
  unfold decode
  refine Request.of_ite_eq
    (fun _ => failsIn_versionFields.of_map) ?_
  refine Request.of_ite_eq
    (fun _ => failsIn_attachFields.of_map) ?_
  refine Request.of_ite_eq
    (fun _ => failsIn_walkFields.of_map) ?_
  refine Request.of_ite_eq
    (fun _ => (failsIn_word _ 4 _).of_map) ?_
  refine Request.of_ite_eq
    (fun _ => failsIn_readFields.of_map) ?_
  refine Request.of_ite_eq
    (fun _ => (failsIn_word _ 4 _).of_map) ?_
  refine Request.of_ite_eq
    (fun _ => (failsIn_word _ 4 _).of_map) ?_
  intro hEq
  cases hEq

end PseudoRequest

/-
  The fields of a frame cannot be read by a server: there are
  too few bytes, or a string is not UTF-8.
-/
def FileServer.Unreadable :
    FileServer → UInt8 → Bytes → IoError → Prop
| .ramfs => fun msgType body err =>
    Request.decode msgType body = .error err ∧
      err.EofOrInvalid "invalid string"
| _ => fun msgType body err =>
    PseudoRequest.decode msgType body = .error err ∧
      err.EofOrInvalid "invalid UTF-8 string"

/- An I/O error comes from the fields, but for a walk. -/
theorem unreadable_of_ramServe
    {hasher : Hasher}
    {access : RamAccess}
    {fids : FidTable}
    {msgType : UInt8}
    {tag : UInt16}
    {body : Bytes}
    {err : IoError}
    (hServe :
      ramServe hasher access fids msgType tag body =
        .error (.io err))
    (hNotWalk : msgType ≠ TWALK) :
    Request.decode msgType body = .error err := by
  have hOutcome :=
    handleMessage_outcome hasher access.clock tag body
      ⟨access.ramfs, access.poisoned, fids, []⟩ msgType
  unfold ramServe at hServe
  revert hServe hOutcome
  generalize handleMessage hasher access.clock msgType tag
    body ⟨access.ramfs, access.poisoned, fids, []⟩ = result
  generalize hDecode : Request.decode msgType body = decoded
  intro hServe hOutcome
  cases hOutcome with
  | malformed err' =>
      cases hServe
      rfl
  | badName hNames =>
      have hWalk :=
        (Request.decode_msgType hDecode).resolve_left nofun
      exact absurd (Option.some.inj hWalk).symm hNotWalk
  | served hEffect hFrame | panicked hHazard =>
      cases hServe

theorem unreadable_of_serve
    {handle :
      PseudoRequest → Except Panic (FidTable × Reply)}
    {msgType : UInt8}
    {tag : UInt16}
    {body : Bytes}
    {err : IoError}
    (hServe :
      serve handle msgType tag body = .error (.io err)) :
    PseudoRequest.decode msgType body = .error err := by
  unfold serve at hServe
  split at hServe
  · rename_i err' hDecode
    cases hServe
    exact hDecode
  · split at hServe
    · cases hServe
    · split at hServe <;> cases hServe

theorem FileServer.unreadable_of_io
    {Pid : Type}
    [DecidableEq Pid]
    {hasher : Hasher}
    {pids : PidText Pid}
    {server : FileServer}
    {env : (server.service hasher pids).Env}
    {fids : FidTable}
    {msgType : UInt8}
    {tag : UInt16}
    {body : Bytes}
    {err : IoError}
    (hServe :
      (server.service hasher pids).serve env fids msgType
        tag body = .error (.io err))
    (hNotWalk : msgType ≠ TWALK) :
    server.Unreadable msgType body err := by
  cases server with
  | ramfs =>
      have hFields := unreadable_of_ramServe hServe hNotWalk
      exact ⟨hFields, Request.ofRequest_of_decode hFields⟩
  | procfs | srvfs | devfs | netfs =>
      have hFields := unreadable_of_serve hServe
      exact ⟨hFields,
        PseudoRequest.eofOrInvalid_of_decode hFields⟩

end Planten

------------------------------------------------------------
-- Access without Attach
------------------------------------------------------------

namespace Planten

/-
  What a server grants through fids that are not in the
  table.  A turn ends without an answer only when its body
  cannot be read, the lock is poisoned, or an open lacks its
  mode.
-/
structure Service.AttachRule
    (S : Service)
    (Unreadable : UInt8 → Bytes → IoError → Prop) :
    Prop where
  refused :
    ∀ turns fids (turn : ServiceTurn S.Env) fid fids' frame,
      S.run turns = some fids →
        sourceFid? turn.msgType turn.body = some fid →
          ¬ FidTable.Holds fids fid →
            turn.msgType ≠ TWALK →
              S.answer fids turn = some (fids', frame) →
                fids' = fids ∧
                  frame[4]? =
                    some (if turn.msgType = TCLUNK then
                      RCLUNK
                    else
                      RERROR)
  answered :
    ∀ turns fids (turn : ServiceTurn S.Env) fid,
      S.run turns = some fids →
        sourceFid? turn.msgType turn.body = some fid →
          ¬ FidTable.Holds fids fid →
            turn.msgType ≠ TWALK →
              S.answer fids turn = none →
                (∃ err,
                  Unreadable turn.msgType turn.body err) ∨
                S.poisoned turn.env = true ∨
                (turn.msgType = TOPEN ∧ turn.body.length < 5)
  descends :
    ∀ turns fids fid,
      S.run turns = some fids →
        FidTable.Holds fids fid →
          S.Descends turns fid
  starts :
    ∀ turns fids,
      (∀ turn ∈ turns,
        turn.msgType ≠ TATTACH ∧ turn.msgType ≠ TWALK) →
        S.run turns = some fids →
          fids = []

/- Without an attach or a walk no fid is in the table. -/
theorem Service.FidLaw.no_fids
    {S : Service}
    (hLaw : S.FidLaw)
    {turns : List (ServiceTurn S.Env)}
    {fids : FidTable}
    (hTypes :
      ∀ turn ∈ turns,
        turn.msgType ≠ TATTACH ∧ turn.msgType ≠ TWALK)
    (hRun : S.run turns = some fids) :
    fids = [] := by
  cases fids with
  | nil =>
      rfl
  | cons entry fids =>
      have hHolds :
          FidTable.Holds (entry :: fids) entry.1 :=
        List.mem_cons_self ..
      rcases (hLaw.descends hRun hHolds).exists_turn with
        ⟨turn, hMem, hAttach | hWalk⟩
      · exact absurd hAttach (hTypes turn hMem).1
      · exact absurd hWalk (hTypes turn hMem).2

/- An answer through a fid that is not in the table. -/
theorem Service.FidLaw.refused
    {S : Service}
    (hLaw : S.FidLaw)
    {fids fids' : FidTable}
    {turn : ServiceTurn S.Env}
    {fid : UInt32}
    {frame : Bytes}
    (hSource :
      sourceFid? turn.msgType turn.body = some fid)
    (hNone : ¬ FidTable.Holds fids fid)
    (hNotWalk : turn.msgType ≠ TWALK)
    (hAnswer : S.answer fids turn = some (fids', frame)) :
    fids' = fids ∧
      frame[4]? =
        some (if turn.msgType = TCLUNK then
          RCLUNK
        else
          RERROR) := by
  by_cases hClunk : turn.msgType = TCLUNK
  · rw [if_pos hClunk]
    exact hLaw.clunks fids turn fid fids' frame hSource hNone
      hClunk hAnswer
  · rw [if_neg hClunk]
    exact hLaw.refuses fids turn fid fids' frame hSource
      hNone hNotWalk hClunk hAnswer

/- A turn that does not panic is answered or cut short. -/
theorem Service.FidLaw.cut_short
    {S : Service}
    (hLaw : S.FidLaw)
    {fids : FidTable}
    {turn : ServiceTurn S.Env}
    {fid : UInt32}
    (hSource :
      sourceFid? turn.msgType turn.body = some fid)
    (hNone : ¬ FidTable.Holds fids fid)
    (hNotWalk : turn.msgType ≠ TWALK)
    (hLock : S.poisoned turn.env = false)
    (hMode : turn.msgType = TOPEN → 5 ≤ turn.body.length)
    (hSilent : S.answer fids turn = none) :
    ∃ err,
      S.serve turn.env fids turn.msgType turn.tag
        turn.body = .error (.io err) := by
  unfold Service.answer at hSilent
  cases hServe :
    S.serve turn.env fids turn.msgType turn.tag turn.body with
  | error fault =>
      cases fault with
      | io err =>
          exact ⟨err, rfl⟩
      | panic cause =>
          exact absurd hServe
            (hLaw.answers fids turn fid cause hSource hNone
              hNotWalk hLock hMode)
  | ok r =>
      rw [hServe] at hSilent
      cases hSilent

/-
  In every run of a connection of every server, a request
  through a fid that is not in the table is refused, walks
  and clunks apart, and every fid of the table descends.
-/
theorem FileServer.attachRule
    {Pid : Type}
    [DecidableEq Pid]
    (hasher : Hasher)
    (pids : PidText Pid)
    (server : FileServer) :
    (server.service hasher pids).AttachRule
      server.Unreadable := by
  have hLaw := fidLaw hasher pids server
  constructor
  · intro turns fids turn fid fids' frame _ hSource hNone
      hNotWalk hAnswer
    exact hLaw.refused hSource hNone hNotWalk hAnswer
  · intro turns fids turn fid _ hSource hNone hNotWalk
      hSilent
    by_cases hLock :
        (server.service hasher pids).poisoned turn.env = true
    · exact Or.inr (Or.inl hLock)
    · by_cases hShort :
          turn.msgType = TOPEN ∧ turn.body.length < 5
      · exact Or.inr (Or.inr hShort)
      · have hMode (hOpen : turn.msgType = TOPEN) :
            5 ≤ turn.body.length :=
          not_lt.mp (fun hLess => hShort ⟨hOpen, hLess⟩)
        rcases hLaw.cut_short hSource hNone hNotWalk
          (eq_false_of_ne_true hLock) hMode hSilent with
          ⟨err, hServe⟩
        exact Or.inl ⟨err, unreadable_of_io hServe hNotWalk⟩
  · intro turns fids fid hRun hHolds
    exact hLaw.descends hRun hHolds
  · intro turns fids hTypes hRun
    exact hLaw.no_fids hTypes hRun

/-
  On a fresh connection to the device file system, a walk
  from fid 7 is answered and binds fid 1, and a clunk of
  fid 7 is answered.
-/
theorem walk_without_attach :
    sourceFid? TWALK (encodeWalkBody 7 1 []) = some 7 ∧
      ¬ FidTable.Holds [] 7 ∧
      DevFs.handleClient (idleAccess (fun _ => 0)) [] TWALK 0
          (encodeWalkBody 7 1 []) =
        .ok ([(1, FidState.new "/" ⟨0x80, 0, 0⟩)],
          frameBytes RWALK 0 (u16le 0)) ∧
      DevFs.handleClient (idleAccess (fun _ => 0)) []
          TCLUNK 0 (encodeClunkBody 7) =
        .ok ([], frameBytes RCLUNK 0 []) := by
  refine ⟨by decide, List.not_mem_nil, ?_, ?_⟩
  · decide +kernel
  · decide +kernel

end Planten
