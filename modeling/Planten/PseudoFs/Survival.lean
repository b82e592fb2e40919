import Planten.NineP.Requests
import Planten.PseudoFs.Outcomes

/-
  What the pseudo servers survive.

  A turn of a request loop sends one reply with the tag of
  the request, or ends the connection with an I/O error, or
  panics.  It panics exactly when the frame is readable and
  its request runs into a hazard.

  Key definitions include:
    * `Survives`
    * `Loop.Safe`
    * `ProcFs.loop`, `SrvFs.loop`, `DevFs.loop`,
      `NetFs.loop`

  Key theorems include:
    * `Loop.survives_iff`
    * `servers_survive_iff`
-/

------------------------------------------------------------
-- Turns of a Loop
------------------------------------------------------------

namespace Planten

/- One reply with the tag of the request, or an I/O error. -/
def Survives
    (tag : UInt16)
    (result : Except Fault (FidTable × Bytes)) : Prop :=
  (∃ fids msgType body frame,
    buildFrame msgType tag body = .ok frame ∧
      result = .ok (fids, frame)) ∨
  ∃ err, result = .error (.io err)

namespace PseudoRequest

/- A walk is the fields of a frame of its type. -/
theorem walkFields_of_decode
    {msgType : UInt8}
    {body : Bytes}
    {fid newfid : UInt32}
    {names : List String}
    (hDecode :
      decode msgType body = .ok (.twalk fid newfid names)) :
    msgType = TWALK ∧
      ∃ rest,
        walkFields.run body =
          .ok ((fid, newfid, names), rest) := by
  unfold decode at hDecode
  split_ifs at hDecode with hVersion hAttach hWalk
  case neg =>
    cases hDecode
  all_goals
    rcases ok_of_map hDecode with ⟨⟨fields, rest⟩, hRun, hEq⟩
    cases hEq
  exact ⟨hWalk, rest, hRun⟩

theorem topen_of_decode
    {msgType : UInt8}
    {body : Bytes}
    {fid : UInt32}
    {mode : Option UInt8}
    (hDecode :
      decode msgType body = .ok (.topen fid mode)) :
    msgType = TOPEN ∧ mode = body[4]? := by
  unfold decode at hDecode
  split_ifs at hDecode with hVersion hAttach hWalk hOpen
  case neg =>
    cases hDecode
  all_goals
    rcases ok_of_map hDecode with ⟨⟨fields, rest⟩, hRun, hEq⟩
    cases hEq
  exact ⟨hOpen, rfl⟩

/- The names of a walk are counted in 16 bits. -/
theorem yields_walkFields :
    Decoder.Yields walkFields
      (fun r => r.2.2.length ≤ 65535) := by
  refine (Decoder.yields_trivial _).bind (fun fid _ => ?_)
  refine (Decoder.yields_trivial _).bind (fun newfid _ => ?_)
  refine (Decoder.yields_trivial _).bind (fun nwname _ => ?_)
  intro cursor r rest hRun
  rcases Decoder.run_bind_ok hRun with
    ⟨names, _, hMany, hPure⟩
  cases hPure
  have hLength := Decoder.length_of_many hMany
  have hLt := nwname.toNat_lt
  simp only
  omega

theorem length_names_of_decode
    {msgType : UInt8}
    {body : Bytes}
    {req : PseudoRequest}
    (hDecode : decode msgType body = .ok req) :
    req.names.length ≤ 65535 := by
  cases req with
  | twalk fid newfid names =>
      rcases walkFields_of_decode hDecode with
        ⟨_, rest, hRun⟩
      exact yields_walkFields _ _ _ hRun
  | _ =>
      exact Nat.zero_le _

end PseudoRequest

namespace Loop

variable {H : Type}

/- The frame is unreadable, or its request hits no hazard. -/
def Safe
    (loop : Loop H)
    (access : Access H)
    (fids : FidTable)
    (msgType : UInt8)
    (body : Bytes) : Prop :=
  ∀ req,
    PseudoRequest.decode msgType body = .ok req →
      ¬ loop.Hazard access fids req

/- A turn is a request read, handled and answered. -/
theorem serve_eq
    (loop : Loop H)
    (access : Access H)
    (fids : FidTable)
    (msgType : UInt8)
    (tag : UInt16)
    (body : Bytes) :
    serve (loop.handle access fids) msgType tag body =
      match PseudoRequest.decode msgType body with
      | .error err => .error (.io err)
      | .ok req =>
          match loop.respond access fids tag req with
          | .error cause => .error (.panic cause)
          | .ok sent => .ok sent := by
  unfold serve
  cases PseudoRequest.decode msgType body with
  | error err =>
      rfl
  | ok req =>
      cases hHandle : loop.handle access fids req with
      | error cause =>
          simp only [hHandle, respond_of_error tag hHandle]
      | ok answer =>
          simp only [hHandle, respond_of_ok tag hHandle]
          cases answer.2.frame tag <;> rfl

/- What is sent is one frame with the tag. -/
theorem frame_of_respond
    {loop : Loop H}
    {access : Access H}
    {fids : FidTable}
    {tag : UInt16}
    {req : PseudoRequest}
    {sent : FidTable × Bytes}
    (hRespond : loop.respond access fids tag req = .ok sent) :
    ∃ reply,
      loop.Effect access fids req sent.1 reply ∧
        reply.frame tag = .ok sent.2 := by
  rw [respond, bind_eq_ok_iff] at hRespond
  rcases hRespond with ⟨⟨fids', reply⟩, hHandle, hSent⟩
  simp only [bind_eq_ok_iff] at hSent
  rcases hSent with ⟨frame, hFrame, hPure⟩
  cases hPure
  exact ⟨reply, effect_of_handle hHandle, hFrame⟩

/- A loop survives a frame exactly when it is safe. -/
theorem survives_iff
    (loop : Loop H)
    (access : Access H)
    (fids : FidTable)
    (msgType : UInt8)
    (tag : UInt16)
    (body : Bytes) :
    Survives tag
        (serve (loop.handle access fids) msgType tag body) ↔
      loop.Safe access fids msgType body := by
  rw [serve_eq, Safe]
  cases hDecode : PseudoRequest.decode msgType body with
  | error err =>
      constructor
      · intro _ req hReq
        cases hReq
      · intro _
        exact Or.inr ⟨err, rfl⟩
  | ok req =>
      have hNames :=
        PseudoRequest.length_names_of_decode hDecode
      have hPanics :=
        @panics_iff_hazard H loop access fids req tag hNames
      cases hRespond :
        loop.respond access fids tag req with
      | error cause =>
          apply iff_of_false
          · rintro (⟨_, _, _, _, _, hSent⟩ | ⟨_, hIo⟩)
            · simp only [hRespond] at hSent
              cases hSent
            · simp only [hRespond] at hIo
              cases hIo
          · intro hSafe
            exact hSafe req rfl
              (hPanics.mp ⟨cause, hRespond⟩)
      | ok sent =>
          apply iff_of_true
          · rcases frame_of_respond hRespond with
              ⟨reply, _, hFrame⟩
            simp only [hRespond]
            exact Or.inl ⟨sent.1, reply.msgType, reply.body,
              sent.2, hFrame, rfl⟩
          · intro req' hReq hHazard
            cases hReq
            rcases hPanics.mpr hHazard with ⟨cause, hError⟩
            cases hRespond.symm.trans hError

end Loop

end Planten

------------------------------------------------------------
-- The Four Servers
------------------------------------------------------------

namespace Planten

def ProcFs.loop
    {Pid : Type}
    [DecidableEq Pid]
    (pids : PidText Pid) : Loop (ProcTable Pid) :=
  ProcSrv.loop (ProcFs.statLaw pids)

def SrvFs.loop : Loop SrvRoot :=
  ProcSrv.loop SrvFs.statLaw

def DevFs.loop : Loop (Nat → UInt8) :=
  DevNet.loop DevFs.statLaw

def NetFs.loop : Loop NetHost :=
  DevNet.loop NetFs.statLaw

theorem ProcFs.handleClient_eq
    {Pid : Type}
    [DecidableEq Pid]
    (pids : PidText Pid)
    (access : Access (ProcTable Pid))
    (fids : FidTable) :
    ProcFs.handleClient pids access fids =
      serve ((ProcFs.loop pids).handle access fids) :=
  congrArg serve
    (funext (ProcSrv.handle_eq (ProcFs.statLaw pids) access
      fids))

theorem SrvFs.handleClient_eq
    (access : Access SrvRoot)
    (fids : FidTable) :
    SrvFs.handleClient access fids =
      serve (SrvFs.loop.handle access fids) :=
  congrArg serve
    (funext (ProcSrv.handle_eq SrvFs.statLaw access fids))

theorem DevFs.handleClient_eq
    (access : Access (Nat → UInt8))
    (fids : FidTable) :
    DevFs.handleClient access fids =
      serve (DevFs.loop.handle access fids) :=
  congrArg serve
    (funext (DevNet.handle_eq DevFs.statLaw "dev" access
      fids))

theorem NetFs.handleClient_eq
    (access : Access NetHost)
    (fids : FidTable) :
    NetFs.handleClient access fids =
      serve (NetFs.loop.handle access fids) :=
  congrArg serve
    (funext (DevNet.handle_eq NetFs.statLaw "net" access
      fids))

/-
  In every state of every server, whatever the other threads
  left of the file system and its lock, a frame is survived
  exactly when it is safe.
-/
theorem servers_survive_iff
    {Pid : Type}
    [DecidableEq Pid]
    (pids : PidText Pid)
    (fids : FidTable)
    (msgType : UInt8)
    (tag : UInt16)
    (body : Bytes) :
    (∀ access : Access (ProcTable Pid),
      Survives tag
          (ProcFs.handleClient pids access fids msgType tag
            body) ↔
        (ProcFs.loop pids).Safe access fids msgType body) ∧
    (∀ access : Access SrvRoot,
      Survives tag
          (SrvFs.handleClient access fids msgType tag
            body) ↔
        SrvFs.loop.Safe access fids msgType body) ∧
    (∀ access : Access (Nat → UInt8),
      Survives tag
          (DevFs.handleClient access fids msgType tag
            body) ↔
        DevFs.loop.Safe access fids msgType body) ∧
    (∀ access : Access NetHost,
      Survives tag
          (NetFs.handleClient access fids msgType tag
            body) ↔
        NetFs.loop.Safe access fids msgType body) := by
  refine ⟨fun access => ?_, fun access => ?_,
    fun access => ?_, fun access => ?_⟩
  · rw [ProcFs.handleClient_eq]
    exact Loop.survives_iff _ access fids msgType tag body
  · rw [SrvFs.handleClient_eq]
    exact Loop.survives_iff _ access fids msgType tag body
  · rw [DevFs.handleClient_eq]
    exact Loop.survives_iff _ access fids msgType tag body
  · rw [NetFs.handleClient_eq]
    exact Loop.survives_iff _ access fids msgType tag body

/- A host where nothing changes and the lock is free. -/
def idleAccess {H : Type} (reading : H) : Access H :=
  ⟨false, fun _ => ⟨fun _ => 0, fun _ => reading⟩⟩

/- The fid table after a client attached fid 0. -/
def rootFid : FidTable :=
  [(0, FidState.new "/" ⟨0x80, 0, 0⟩)]

/-
  An open without its mode byte, and a read whose end does
  not fit 64 bits, both panic.
-/
theorem not_survives_of_shortOpen :
    ¬ Survives 0
        (SrvFs.handleClient (idleAccess ⟨some [], fun _ => none⟩)
          [] TOPEN 0 (u32le 0)) ∧
      ¬ Survives 0
        (DevFs.handleClient (idleAccess (fun _ => 0)) rootFid
          TREAD 0
          (encodeReadBody 0 0xffffffffffffffff 1)) := by
  have hOpen :
      SrvFs.handleClient (idleAccess ⟨some [], fun _ => none⟩)
          [] TOPEN 0 (u32le 0) =
        .error (.panic .sliceOutOfRange) := by
    rfl
  have hRead :
      DevFs.handleClient (idleAccess (fun _ => 0)) rootFid
          TREAD 0
          (encodeReadBody 0 0xffffffffffffffff 1) =
        .error (.panic .addOverflow) := by
    decide +kernel
  rw [hOpen, hRead]
  refine ⟨?_, ?_⟩
  · rintro (⟨_, _, _, _, _, hSent⟩ | ⟨_, hIo⟩)
    · cases hSent
    · cases hIo
  · rintro (⟨_, _, _, _, _, hSent⟩ | ⟨_, hIo⟩)
    · cases hSent
    · cases hIo

end Planten
