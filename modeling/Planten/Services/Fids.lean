import Planten.RamFs.Panics
import Planten.Services.Service

/-
  What the servers do with fids.

  The fids of a request are the first numbers of its body.
  In every server, a request that goes through a fid which is
  not in the table is refused, walks and clunks apart, and a
  fid enters the table by a request that binds it.

  Key definitions include:
    * `sourceFid?`
    * `bindingFids?`
    * `Service.Binds`
    * `Service.FidLaw`

  Key theorems include:
    * `ramService_fidLaw`
    * `Loop.service_fidLaw`
    * `FileServer.fidLaw`
-/

------------------------------------------------------------
-- Fids of a Frame
------------------------------------------------------------

namespace Planten

/- The requests that go through a fid. -/
def fidTypes : List UInt8 :=
  [TWALK, TOPEN, TCREATE, TREAD, TWRITE, TCLUNK, TREMOVE,
    TSTAT, TWSTAT, TCLONE]

/- The number a body begins with. -/
def leadingU32? (body : Bytes) : Option UInt32 :=
  (decodeU32.run body).toOption.map Prod.fst

/- The fid a frame goes through. -/
def sourceFid?
    (msgType : UInt8)
    (body : Bytes) : Option UInt32 :=
  if msgType ∈ fidTypes then
    leadingU32? body
  else
    none

/- The fid a frame binds, and the fid it binds it from. -/
def bindingFids?
    (msgType : UInt8)
    (body : Bytes) : Option (Option UInt32 × UInt32) :=
  if msgType = TATTACH then
    (leadingU32? body).map (fun fid => (none, fid))
  else if msgType = TWALK ∨ msgType = TCLONE then
    (cloneFields.run body).toOption.map
      (fun r => (some r.1.1, r.1.2))
  else
    none

/- A decoder of fields of which one is the leading fid. -/
def Leads
    {α : Type}
    (d : Decoder IoError α)
    (fid : α → UInt32) : Prop :=
  ∀ body a rest,
    d.run body = .ok (a, rest) →
      leadingU32? body = some (fid a)

theorem leadingU32_of_run
    {body rest : Bytes}
    {fid : UInt32}
    (hRun : decodeU32.run body = .ok (fid, rest)) :
    leadingU32? body = some fid := by
  rw [leadingU32?, hRun]
  rfl

/- Fields that begin with the fid and keep it lead with it. -/
theorem leads_bind
    {α : Type}
    {f : UInt32 → Decoder IoError α}
    {fid : α → UInt32}
    (hKeeps :
      ∀ first,
        Decoder.Yields (f first) (fun a => fid a = first)) :
    Leads (decodeU32 >>= f) fid := by
  intro body a rest hRun
  rcases Decoder.run_bind_ok hRun with
    ⟨first, mid, hFirst, hRest⟩
  rw [hKeeps first mid a rest hRest]
  exact leadingU32_of_run hFirst

/- Fields that begin with two fids and keep them. -/
theorem cloneFields_of_run
    {α : Type}
    {f : UInt32 → UInt32 → Decoder IoError α}
    {fid newfid : α → UInt32}
    (hKeeps :
      ∀ first second,
        Decoder.Yields (f first second)
          (fun a => fid a = first ∧ newfid a = second))
    {body rest : Bytes}
    {a : α}
    (hRun :
      (do
        let first ← decodeU32
        let second ← decodeU32
        f first second).run body = .ok (a, rest)) :
    ∃ mid,
      cloneFields.run body =
        .ok ((fid a, newfid a), mid) := by
  rcases Decoder.run_bind_ok hRun with
    ⟨first, cursor, hFirst, hRun⟩
  rcases Decoder.run_bind_ok hRun with
    ⟨second, mid, hSecond, hRest⟩
  have hBoth := hKeeps first second mid a rest hRest
  refine ⟨mid, ?_⟩
  rw [hBoth.1, hBoth.2]
  change (decodeU32 >>= fun first =>
    decodeU32 >>= fun second => pure (first, second)).run
      body = _
  rw [StateT.run_bind, hFirst]
  change (decodeU32 >>= fun second =>
    pure (first, second)).run cursor = _
  rw [StateT.run_bind, hSecond]
  rfl

/- A source of a binding is the fid the body begins with. -/
theorem leadingU32_of_binding
    {msgType : UInt8}
    {body : Bytes}
    {source fid : UInt32}
    (hBinding :
      bindingFids? msgType body = some (some source, fid)) :
    leadingU32? body = some source := by
  unfold bindingFids? at hBinding
  split_ifs at hBinding
  · cases hLeading : leadingU32? body with
    | none | some first =>
        rw [hLeading] at hBinding
        cases hBinding
  · cases hRun : cloneFields.run body with
    | error err =>
        rw [hRun] at hBinding
        cases hBinding
    | ok r =>
        rcases r with ⟨⟨first', second'⟩, rest⟩
        rw [hRun] at hBinding
        cases hBinding
        rcases Decoder.run_bind_ok hRun with
          ⟨first, mid, hFirst, hRest⟩
        rcases Decoder.run_bind_ok hRest with
          ⟨second, mid', _, hPure⟩
        cases hPure
        exact leadingU32_of_run hFirst

end Planten
------------------------------------------------------------
-- Fields and Fids
------------------------------------------------------------

namespace Planten

open Decoder (yields_pure yields_trivial)

theorem leads_openFields : Leads openFields Prod.fst :=
  leads_bind (fun _ =>
    (yields_trivial _).bind (fun _ _ => yields_pure rfl))

theorem leads_cloneFields : Leads cloneFields Prod.fst :=
  leads_bind (fun _ =>
    (yields_trivial _).bind (fun _ _ => yields_pure rfl))

theorem leads_readFields : Leads readFields Prod.fst :=
  leads_bind (fun _ =>
    (yields_trivial _).bind (fun _ _ =>
      (yields_trivial _).bind (fun _ _ => yields_pure rfl)))

theorem leads_writeFields : Leads writeFields Prod.fst :=
  leads_bind (fun _ =>
    (yields_trivial _).bind (fun _ _ =>
      (yields_trivial _).bind (fun _ _ =>
        (yields_trivial _).bind (fun _ _ =>
          yields_pure rfl))))

theorem leads_createFields : Leads createFields Prod.fst :=
  leads_bind (fun _ =>
    (yields_trivial _).bind (fun _ _ =>
      (yields_trivial _).bind (fun _ _ =>
        (yields_trivial _).bind (fun _ _ =>
          yields_pure rfl))))

theorem leads_attachFields : Leads attachFields Prod.fst :=
  leads_bind (fun _ =>
    (yields_trivial _).bind (fun _ _ =>
      (yields_trivial _).bind (fun _ _ =>
        (yields_trivial _).bind (fun _ _ =>
          yields_pure rfl))))

theorem leads_decodeU32 : Leads decodeU32 id :=
  fun _ _ _ hRun => leadingU32_of_run hRun

/- A request made of leading fields has their fid. -/
theorem field_of_map
    {α Req : Type}
    {d : Decoder IoError α}
    {fid : α → UInt32}
    {f : α × Bytes → Req}
    {field : Req → Option UInt32}
    {body : Bytes}
    {req : Req}
    {first : UInt32}
    (hLeads : Leads d fid)
    (hField : ∀ r, field (f r) = some (fid r.1))
    (hMap : (d.run body).map f = .ok req)
    (hFirst : leadingU32? body = some first) :
    field req = some first := by
  rcases ok_of_map hMap with ⟨⟨a, rest⟩, hRun, rfl⟩
  rw [hField, ← hFirst]
  exact (hLeads body a rest hRun).symm

end Planten


------------------------------------------------------------
-- The Law of Fids
------------------------------------------------------------

namespace Planten

/- The fids that are in a table. -/
abbrev FidTable.Holds
    (fids : FidTable)
    (fid : UInt32) : Prop :=
  fid ∈ KeyMap.keys fids

namespace Service

variable (S : Service)

/- A turn that binds a fid, and is answered so. -/
def Binds
    (fids : FidTable)
    (turn : ServiceTurn S.Env)
    (source : Option UInt32)
    (fid : UInt32) : Prop :=
  bindingFids? turn.msgType turn.body = some (source, fid) ∧
    ∃ fids' frame,
      S.answer fids turn = some (fids', frame) ∧
        frame[4]? = some (turn.msgType + 1)

/-
  What one turn of a server does with fids that are not in
  the table.
-/
structure FidLaw : Prop where
  refuses :
    ∀ fids (turn : ServiceTurn S.Env) fid fids' frame,
      sourceFid? turn.msgType turn.body = some fid →
        ¬ FidTable.Holds fids fid →
          turn.msgType ≠ TWALK →
            turn.msgType ≠ TCLUNK →
              S.answer fids turn = some (fids', frame) →
                fids' = fids ∧ frame[4]? = some RERROR
  clunks :
    ∀ fids (turn : ServiceTurn S.Env) fid fids' frame,
      sourceFid? turn.msgType turn.body = some fid →
        ¬ FidTable.Holds fids fid →
          turn.msgType = TCLUNK →
            S.answer fids turn = some (fids', frame) →
              fids' = fids ∧ frame[4]? = some RCLUNK
  answers :
    ∀ fids (turn : ServiceTurn S.Env) fid cause,
      sourceFid? turn.msgType turn.body = some fid →
        ¬ FidTable.Holds fids fid →
          turn.msgType ≠ TWALK →
            S.poisoned turn.env = false →
              (turn.msgType = TOPEN → 5 ≤ turn.body.length) →
                S.serve turn.env fids turn.msgType turn.tag
                  turn.body ≠ .error (.panic cause)
  adds :
    ∀ fids (turn : ServiceTurn S.Env) fid fids' frame,
      S.answer fids turn = some (fids', frame) →
        FidTable.Holds fids' fid →
          ¬ FidTable.Holds fids fid →
            ∃ source, S.Binds fids turn source fid

end Service

namespace Service.FidLaw

variable {S : Service}

/- A clone through a fid that is not in the table fails. -/
theorem walk_of_binds
    (hLaw : S.FidLaw)
    {fids : FidTable}
    {turn : ServiceTurn S.Env}
    {source fid : UInt32}
    (hBinds : S.Binds fids turn (some source) fid)
    (hNone : ¬ FidTable.Holds fids source) :
    turn.msgType = TWALK := by
  rcases hBinds with ⟨hBinding, fids', frame, hAnswer, hType⟩
  by_contra hNotWalk
  have hClone : turn.msgType = TCLONE := by
    unfold bindingFids? at hBinding
    split_ifs at hBinding with hAttach hEither
    · cases hLeading : leadingU32? turn.body with
      | none | some first =>
          rw [hLeading] at hBinding
          cases hBinding
    · exact hEither.resolve_left hNotWalk
  have hSource :
      sourceFid? turn.msgType turn.body = some source := by
    rw [sourceFid?, hClone, if_pos (by decide)]
    exact leadingU32_of_binding hBinding
  have hRefused :=
    hLaw.refuses fids turn source fids' frame hSource hNone
      hNotWalk (by rw [hClone]; decide) hAnswer
  rw [hRefused.2, hClone] at hType
  exact absurd hType (by decide)

end Service.FidLaw

end Planten

------------------------------------------------------------
-- The RAMFS
------------------------------------------------------------

namespace Planten

open Decoder (yields_pure yields_trivial)

namespace Request

/- The fid a request binds, and the fid it binds it from. -/
def boundFids? :
    Request → Option (Option UInt32 × UInt32)
| tattach fid _ _ _ => some (none, fid)
| twalk fid newfid _ _ => some (some fid, newfid)
| tclone fid newfid => some (some fid, newfid)
| _ => none

variable {msgType : UInt8} {body : Bytes} {req : Request}

/-
  The request of a frame goes through the fid of the frame,
  walks and clunks apart.
-/
theorem sourceFid_of_decode
    {fid : UInt32}
    (hDecode : decode msgType body = .ok req)
    (hSource : Planten.sourceFid? msgType body = some fid)
    (hNotWalk : msgType ≠ TWALK)
    (hNotClunk : msgType ≠ TCLUNK) :
    req.sourceFid? = some fid := by
  unfold Planten.sourceFid? at hSource
  split at hSource
  · rename_i hMem
    simp only [fidTypes, List.mem_cons, List.not_mem_nil,
      or_false] at hMem
    rcases hMem with rfl | rfl | rfl | rfl | rfl | rfl | rfl |
      rfl | rfl | rfl
    · exact absurd rfl hNotWalk
    · exact field_of_map leads_openFields (fun _ => rfl)
        hDecode hSource
    · exact field_of_map leads_createFields (fun _ => rfl)
        hDecode hSource
    · exact field_of_map leads_readFields (fun _ => rfl)
        hDecode hSource
    · exact field_of_map leads_writeFields (fun _ => rfl)
        hDecode hSource
    · exact absurd rfl hNotClunk
    · exact field_of_map leads_decodeU32 (fun _ => rfl)
        hDecode hSource
    · exact field_of_map leads_decodeU32 (fun _ => rfl)
        hDecode hSource
    · exact field_of_map leads_decodeU32 (fun _ => rfl)
        hDecode hSource
    · exact field_of_map leads_cloneFields (fun _ => rfl)
        hDecode hSource
  · cases hSource

theorem tclunk_of_decode
    {fid : UInt32}
    (hDecode : decode TCLUNK body = .ok req)
    (hSource : Planten.sourceFid? TCLUNK body = some fid) :
    req = .tclunk fid := by
  rcases ok_of_map hDecode with ⟨⟨r, rest⟩, hRun, rfl⟩
  have hLeading := leads_decodeU32 body r rest hRun
  cases hSource.symm.trans hLeading
  rfl

/- The fids a request binds are those of its frame. -/
theorem boundFids_of_decode
    {bound : Option UInt32 × UInt32}
    (hDecode : decode msgType body = .ok req)
    (hBound : req.boundFids? = some bound) :
    bindingFids? msgType body = some bound := by
  have hType := decode_msgType hDecode
  cases req with
  | tattach fid afid uname aname =>
      cases Option.some.inj (hType.resolve_left nofun)
      rcases ok_of_map hDecode with ⟨⟨r, rest⟩, hRun, hEq⟩
      cases hEq
      rw [bindingFids?, if_pos rfl,
        leads_attachFields body r rest hRun]
      exact hBound
  | twalk fid newfid nwname names =>
      cases Option.some.inj (hType.resolve_left nofun)
      rcases ok_of_map hDecode with ⟨⟨r, rest⟩, hRun, hEq⟩
      cases hEq
      have hKeeps (first second : UInt32) :
          Decoder.Yields
            (do
              let nwname ← readU16
              pure (first, second, nwname))
            (fun r : UInt32 × UInt32 × UInt16 =>
              r.1 = first ∧ r.2.1 = second) :=
        (yields_trivial _).bind (fun _ _ =>
          yields_pure ⟨rfl, rfl⟩)
      rcases cloneFields_of_run hKeeps hRun with
        ⟨mid, hClone⟩
      rw [bindingFids?, if_neg (by decide),
        if_pos (Or.inl rfl), hClone]
      exact hBound
  | tclone fid newfid =>
      cases Option.some.inj (hType.resolve_left nofun)
      rcases ok_of_map hDecode with ⟨⟨r, rest⟩, hRun, hEq⟩
      cases hEq
      rw [bindingFids?, if_neg (by decide),
        if_pos (Or.inr rfl), hRun]
      exact hBound
  | _ =>
      cases hBound

end Request

theorem holds_insert
    {fids : FidTable}
    {fid fid' : UInt32}
    {state : FidState} :
    FidTable.Holds (KeyMap.insert fid' state fids) fid ↔
      fid = fid' ∨ FidTable.Holds fids fid := by
  simp only [FidTable.Holds, KeyMap.mem_keys_iff,
    KeyMap.lookup_insert]
  by_cases hSame : fid = fid'
  · simp [hSame]
  · simp [hSame]

theorem holds_of_lookup
    {fids : FidTable}
    {fid : UInt32}
    {state : FidState}
    (hFid : fids.lookup fid = some state) :
    FidTable.Holds fids fid := by
  rw [FidTable.Holds, KeyMap.mem_keys_iff, hFid]
  rfl

theorem lookup_of_not_holds
    {fids : FidTable}
    {fid : UInt32}
    (hNone : ¬ FidTable.Holds fids fid) :
    fids.lookup fid = none := by
  rwa [FidTable.Holds, KeyMap.mem_keys_iff,
    Option.not_isSome_iff_eq_none] at hNone

/- Erasing a fid that is not in the table does nothing. -/
theorem erase_of_not_holds
    {fids : FidTable}
    {fid : UInt32}
    (hNone : ¬ FidTable.Holds fids fid) :
    KeyMap.erase fid fids = fids := by
  rw [KeyMap.erase, List.filter_eq_self]
  intro entry hMem
  rw [decide_eq_true_iff]
  rintro rfl
  exact hNone (List.mem_map_of_mem hMem)

theorem holds_of_erase
    {fids : FidTable}
    {fid fid' : UInt32}
    (hHolds : FidTable.Holds (KeyMap.erase fid' fids) fid) :
    FidTable.Holds fids fid := by
  rcases List.mem_map.mp hHolds with ⟨entry, hMem, rfl⟩
  exact List.mem_map_of_mem (List.mem_of_mem_filter hMem)

variable {hasher : Hasher} {clock : Clock}
variable {fs fs' : RamFs} {fids fids' : FidTable}
variable {req : Request} {reply : Reply} {fid : UInt32}

/- A request through an unknown fid is refused. -/
theorem Effect.refused_of_unknown
    (hEffect :
      Effect hasher clock fs fids req fs' fids' reply)
    (hSource : req.sourceFid? = some fid)
    (hNone : fids.lookup fid = none) :
    fids' = fids ∧ reply.msgType = RERROR := by
  cases hEffect with
  | refused hRefusal =>
      exact ⟨rfl, rfl⟩
  | version | auth | flush | attach
  | walk hNames hTarget | clunk =>
      cases hSource
  | opened hFid hStat
  | create hFid hStep hFresh hOp hStat
  | read hFid hMode hAllowed hData hWindow
  | write hFid hMode hAllowed hOp
  | remove hFid hOp | removeFailed hFid hOp
  | stat hFid hStat | wstat hFid hRecord hOp
  | clone hFid =>
      cases hSource
      cases hNone.symm.trans hFid

/- A request adds a fid to the table by binding it. -/
theorem Effect.binds_of_added
    (hEffect :
      Effect hasher clock fs fids req fs' fids' reply)
    (hHolds : FidTable.Holds fids' fid)
    (hNone : ¬ FidTable.Holds fids fid) :
    ∃ source,
      req.boundFids? = some (source, fid) ∧
        req.msgType?.map (· + 1) = some reply.msgType := by
  cases hEffect with
  | attach | walk hNames hTarget | clone hFid =>
      rcases holds_insert.mp hHolds with rfl | hBefore
      · exact ⟨_, rfl, rfl⟩
      · exact absurd hBefore hNone
  | opened hFid hStat =>
      rcases holds_insert.mp hHolds with rfl | hBefore
      · exact absurd (holds_of_lookup hFid) hNone
      · exact absurd hBefore hNone
  | clunk | remove hFid hOp | removeFailed hFid hOp =>
      exact absurd (holds_of_erase hHolds) hNone
  | version | auth | flush
  | create hFid hStep hFresh hOp hStat
  | read hFid hMode hAllowed hData hWindow
  | write hFid hMode hAllowed hOp
  | stat hFid hStat | wstat hFid hRecord hOp
  | refused hRefusal =>
      exact absurd hHolds hNone

/- A clunk of an unknown fid changes nothing. -/
theorem Effect.clunked_of_unknown
    (hEffect :
      Effect hasher clock fs fids (.tclunk fid) fs' fids'
        reply)
    (hNone : ¬ FidTable.Holds fids fid) :
    fids' = fids ∧ reply.msgType = RCLUNK := by
  cases hEffect with
  | clunk =>
      exact ⟨erase_of_not_holds hNone, rfl⟩
  | refused hRefusal =>
      cases hRefusal with
      | unknownFid hSource hNone' =>
          cases hSource

end Planten

namespace Planten

theorem ramService_fidLaw (hasher : Hasher) :
    (ramService hasher).FidLaw := by
  constructor
  · intro fids turn fid fids' frame hSource hNone hNotWalk
      hNotClunk hAnswer
    rcases effect_of_ramServe
      (Service.answer_eq_some hAnswer) with
      ⟨req, fs', reply, hDecode, hEffect, hFrame⟩
    have hRefused :=
      hEffect.refused_of_unknown
        (Request.sourceFid_of_decode hDecode hSource
          hNotWalk hNotClunk)
        (lookup_of_not_holds hNone)
    rw [← hRefused.2]
    exact ⟨hRefused.1, Server.type_of_buildFrame hFrame⟩
  · intro fids turn fid fids' frame hSource hNone hClunk
      hAnswer
    rcases effect_of_ramServe
      (Service.answer_eq_some hAnswer) with
      ⟨req, fs', reply, hDecode, hEffect, hFrame⟩
    rw [hClunk] at hDecode hSource
    cases Request.tclunk_of_decode hDecode hSource
    have hClunked := hEffect.clunked_of_unknown hNone
    rw [← hClunked.2]
    exact ⟨hClunked.1, Server.type_of_buildFrame hFrame⟩
  · intro fids turn fid cause hSource hNone hNotWalk hLock
      hMode hPanic
    rcases turn with ⟨access, msgType, tag, body⟩
    have hOutcome :=
      handleMessage_outcome hasher access.clock tag body
        ⟨access.ramfs, access.poisoned, fids, []⟩ msgType
    change ramServe hasher access fids msgType tag body = _
      at hPanic
    unfold ramServe at hPanic
    revert hPanic hOutcome
    generalize handleMessage hasher access.clock msgType tag
      body ⟨access.ramfs, access.poisoned, fids, []⟩ = result
    generalize hDecode :
      Request.decode msgType body = decoded
    intro hOutcome hPanic
    cases hOutcome with
    | malformed err | badName hNames
    | served hEffect hFrame =>
        cases hPanic
    | panicked hHazard =>
        by_cases hClunk : msgType = TCLUNK
        · subst hClunk
          cases Request.tclunk_of_decode hDecode hSource
          cases hHazard with
          | poisonedLock hPoisoned =>
              cases hLock.symm.trans hPoisoned
        · exact hHazard.lookup_ne_none hLock
            (Request.sourceFid_of_decode hDecode hSource
              hNotWalk hClunk)
            (lookup_of_not_holds hNone)
  · intro fids turn fid fids' frame hAnswer hHolds hNone
    rcases effect_of_ramServe
      (Service.answer_eq_some hAnswer) with
      ⟨req, fs', reply, hDecode, hEffect, hFrame⟩
    rcases hEffect.binds_of_added hHolds hNone with
      ⟨source, hBound, hType⟩
    refine ⟨source,
      Request.boundFids_of_decode hDecode hBound, fids',
      frame, hAnswer, ?_⟩
    rw [Server.type_of_buildFrame hFrame, ← hType]
    rcases Request.decode_msgType hDecode with
      rfl | hMsgType
    · cases hBound
    · rw [hMsgType]
      rfl

end Planten

------------------------------------------------------------
-- The Request Loops
------------------------------------------------------------

namespace Planten

open Decoder (yields_pure yields_trivial)

namespace PseudoRequest

/- The fid that a request must find in the table. -/
def sourceFid? : PseudoRequest → Option UInt32
| topen fid _ => some fid
| tread fid _ _ => some fid
| tstat fid => some fid
| _ => none

/- The fid a request binds, and the fid it binds it from. -/
def boundFids? :
    PseudoRequest → Option (Option UInt32 × UInt32)
| tattach fid _ _ _ => some (none, fid)
| twalk fid newfid _ => some (some fid, newfid)
| _ => none

variable {msgType : UInt8} {body : Bytes}
variable {req : PseudoRequest}

theorem leads_readFields :
    Leads PseudoRequest.readFields Prod.fst :=
  leads_bind (fun _ =>
    (yields_trivial _).bind (fun _ _ =>
      (yields_trivial _).bind (fun _ _ => yields_pure rfl)))

theorem leads_attachFields :
    Leads PseudoRequest.attachFields Prod.fst :=
  leads_bind (fun _ =>
    (yields_trivial _).bind (fun _ _ =>
      (yields_trivial _).bind (fun _ _ =>
        (yields_trivial _).bind (fun _ _ =>
          yields_pure rfl))))

/-
  The request of a frame goes through the fid of the frame,
  or is of a type the loops do not know.
-/
theorem sourceFid_of_decode
    {fid : UInt32}
    (hDecode : decode msgType body = .ok req)
    (hSource : Planten.sourceFid? msgType body = some fid)
    (hNotWalk : msgType ≠ TWALK)
    (hNotClunk : msgType ≠ TCLUNK) :
    req = .unsupported ∨ req.sourceFid? = some fid := by
  unfold Planten.sourceFid? at hSource
  split at hSource
  · rename_i hMem
    simp only [fidTypes, List.mem_cons, List.not_mem_nil,
      or_false] at hMem
    rcases hMem with rfl | rfl | rfl | rfl | rfl | rfl | rfl |
      rfl | rfl | rfl
    · exact absurd rfl hNotWalk
    · exact Or.inr (field_of_map leads_decodeU32
        (fun _ => rfl) hDecode hSource)
    · exact Or.inl (Except.ok.inj hDecode).symm
    · exact Or.inr (field_of_map leads_readFields
        (fun _ => rfl) hDecode hSource)
    · exact Or.inl (Except.ok.inj hDecode).symm
    · exact absurd rfl hNotClunk
    · exact Or.inl (Except.ok.inj hDecode).symm
    · exact Or.inr (field_of_map leads_decodeU32
        (fun _ => rfl) hDecode hSource)
    · exact Or.inl (Except.ok.inj hDecode).symm
    · exact Or.inl (Except.ok.inj hDecode).symm
  · cases hSource

theorem tclunk_of_decode
    {fid : UInt32}
    (hDecode : decode TCLUNK body = .ok req)
    (hSource : Planten.sourceFid? TCLUNK body = some fid) :
    req = .tclunk fid := by
  rcases ok_of_map hDecode with ⟨⟨r, rest⟩, hRun, rfl⟩
  have hLeading := leads_decodeU32 body r rest hRun
  cases hSource.symm.trans hLeading
  rfl

/- The type of a frame that binds a fid, and its fids. -/
theorem boundFids_of_decode
    {bound : Option UInt32 × UInt32}
    (hDecode : decode msgType body = .ok req)
    (hBound : req.boundFids? = some bound) :
    bindingFids? msgType body = some bound ∧
      (msgType = TATTACH ∧ bound.1 = none ∨
        msgType = TWALK ∧ bound.1 ≠ none) := by
  cases req with
  | tattach fid afid uname aname =>
      unfold decode at hDecode
      split_ifs at hDecode with hVersion hAttach
      case neg =>
        cases hDecode
      all_goals
        rcases ok_of_map hDecode with ⟨⟨r, rest⟩, hRun, hEq⟩
        cases hEq
      cases hBound
      rw [bindingFids?, if_pos hAttach,
        leads_attachFields body r rest hRun]
      exact ⟨rfl, Or.inl ⟨hAttach, rfl⟩⟩
  | twalk fid newfid names =>
      rcases walkFields_of_decode hDecode with
        ⟨hType, rest, hRun⟩
      have hKeeps (first second : UInt32) :
          Decoder.Yields
            (do
              let nwname ← decodeU16
              let names ←
                Decoder.many decodeString nwname.toNat
              pure (first, second, names))
            (fun r : UInt32 × UInt32 × List String =>
              r.1 = first ∧ r.2.1 = second) :=
        (yields_trivial _).bind (fun _ _ =>
          (yields_trivial _).bind (fun _ _ =>
            yields_pure ⟨rfl, rfl⟩))
      rcases cloneFields_of_run hKeeps hRun with
        ⟨mid, hClone⟩
      cases hBound
      subst hType
      rw [bindingFids?, if_neg (by decide),
        if_pos (Or.inl rfl), hClone]
      exact ⟨rfl, Or.inr ⟨rfl, Option.some_ne_none _⟩⟩
  | _ =>
      cases hBound

end PseudoRequest

variable {H : Type} {loop : Loop H} {access : Access H}
variable {fids fids' : FidTable} {req : PseudoRequest}
variable {reply : Reply} {fid : UInt32}

/- A request through an unknown fid is refused. -/
theorem Loop.Effect.refused_of_unknown
    (hEffect : loop.Effect access fids req fids' reply)
    (hSource :
      req = .unsupported ∨ req.sourceFid? = some fid)
    (hNone : fids.lookup fid = none) :
    fids' = fids ∧ reply.msgType = RERROR := by
  cases hEffect with
  | refused hRefusal =>
      exact ⟨rfl, rfl⟩
  | version | attach | walk hCount hSteps hWalk | clunk =>
      rcases hSource with hEq | hEq <;> cases hEq
  | opened hOpens hFid hFinds | openIgnored hOpens hFid
  | read hFid hData | stat hFid hStat =>
      rcases hSource with hEq | hEq
      · cases hEq
      · cases hEq
        cases hNone.symm.trans hFid

/- A request adds a fid to the table by binding it. -/
theorem Loop.Effect.binds_of_added
    (hEffect : loop.Effect access fids req fids' reply)
    (hHolds : FidTable.Holds fids' fid)
    (hNone : ¬ FidTable.Holds fids fid) :
    (req.boundFids? = some (none, fid) ∧
        reply.msgType = RATTACH) ∨
      ∃ source,
        req.boundFids? = some (some source, fid) ∧
          reply.msgType = RWALK := by
  cases hEffect with
  | attach =>
      rcases holds_insert.mp hHolds with rfl | hBefore
      · exact Or.inl ⟨rfl, rfl⟩
      · exact absurd hBefore hNone
  | walk hCount hSteps hWalk =>
      rcases holds_insert.mp hHolds with rfl | hBefore
      · exact Or.inr ⟨_, rfl, rfl⟩
      · exact absurd hBefore hNone
  | opened hOpens hFid hFinds =>
      rcases holds_insert.mp hHolds with rfl | hBefore
      · exact absurd (holds_of_lookup hFid) hNone
      · exact absurd hBefore hNone
  | clunk =>
      exact absurd (holds_of_erase hHolds) hNone
  | version | openIgnored hOpens hFid | read hFid hData
  | stat hFid hStat | refused hRefusal =>
      exact absurd hHolds hNone

/- A clunk of an unknown fid changes nothing. -/
theorem Loop.Effect.clunked_of_unknown
    (hEffect :
      loop.Effect access fids (.tclunk fid) fids' reply)
    (hNone : ¬ FidTable.Holds fids fid) :
    fids' = fids ∧ reply.msgType = RCLUNK := by
  cases hEffect with
  | clunk =>
      exact ⟨erase_of_not_holds hNone, rfl⟩
  | refused hRefusal =>
      cases hRefusal

/-
  A request through an unknown fid hits no hazard, unless the
  lock is poisoned or the mode of an open is missing.
-/
theorem Loop.Hazard.not_unknown
    (hHazard : loop.Hazard access fids req)
    (hSource : req.sourceFid? = some fid)
    (hNone : fids.lookup fid = none)
    (hLock : access.poisoned = false) :
    req = .topen fid none := by
  cases hHazard with
  | attachClock hMakes hBefore | walkLock hPoisoned
  | walkRoot hMakes hBefore
  | walkClock hBound hFinds hBefore =>
      cases hSource
  | openMode hOpens =>
      cases hSource
      rfl
  | openLock hOpens hPoisoned
  | readLock hTakes hPoisoned
  | statLock hTakes hPoisoned =>
      cases hLock.symm.trans hPoisoned
  | openClock hOpens hFid hFinds hBefore
  | readEnd hFid hData hEnd
  | readSize hFid hData hLow hHigh
  | statClock hFid hFinds hBefore
  | statSize hFid hStat hSize =>
      cases hSource
      cases hNone.symm.trans hFid

theorem Loop.service_fidLaw (loop : Loop H) :
    loop.service.FidLaw := by
  constructor
  · intro fids turn fid fids' frame hSource hNone hNotWalk
      hNotClunk hAnswer
    rcases Loop.effect_of_serve
      (Service.answer_eq_some hAnswer) with
      ⟨req, reply, hDecode, hEffect, hFrame⟩
    have hRefused :=
      hEffect.refused_of_unknown
        (PseudoRequest.sourceFid_of_decode hDecode hSource
          hNotWalk hNotClunk)
        (lookup_of_not_holds hNone)
    rw [← hRefused.2]
    exact ⟨hRefused.1, Server.type_of_buildFrame hFrame⟩
  · intro fids turn fid fids' frame hSource hNone hClunk
      hAnswer
    rcases Loop.effect_of_serve
      (Service.answer_eq_some hAnswer) with
      ⟨req, reply, hDecode, hEffect, hFrame⟩
    rw [hClunk] at hDecode hSource
    cases PseudoRequest.tclunk_of_decode hDecode hSource
    have hClunked := hEffect.clunked_of_unknown hNone
    rw [← hClunked.2]
    exact ⟨hClunked.1, Server.type_of_buildFrame hFrame⟩
  · intro fids turn fid cause hSource hNone hNotWalk hLock
      hMode hPanic
    rcases turn with ⟨access, msgType, tag, body⟩
    have hSafe : loop.Safe access fids msgType body := by
      intro req hDecode hHazard
      by_cases hClunk : msgType = TCLUNK
      · subst hClunk
        cases PseudoRequest.tclunk_of_decode hDecode hSource
        cases hHazard
      · rcases PseudoRequest.sourceFid_of_decode hDecode
          hSource hNotWalk hClunk with rfl | hThrough
        · cases hHazard
        · cases hHazard.not_unknown hThrough
            (lookup_of_not_holds hNone) hLock
          have hOpen := PseudoRequest.topen_of_decode hDecode
          have hShort :=
            List.getElem?_eq_none_iff.mp hOpen.2.symm
          exact absurd (hMode hOpen.1)
            (Nat.not_le.mpr (Nat.lt_succ_of_le hShort))
    rcases (loop.survives_iff access fids msgType tag
      body).mpr hSafe with ⟨_, _, _, _, _, hOk⟩ | ⟨_, hIo⟩
    · cases hOk.symm.trans hPanic
    · cases hIo.symm.trans hPanic
  · intro fids turn fid fids' frame hAnswer hHolds hNone
    rcases Loop.effect_of_serve
      (Service.answer_eq_some hAnswer) with
      ⟨req, reply, hDecode, hEffect, hFrame⟩
    have hType := Server.type_of_buildFrame hFrame
    rcases hEffect.binds_of_added hHolds hNone with
      ⟨hBound, hReply⟩ | ⟨source, hBound, hReply⟩
    · rcases PseudoRequest.boundFids_of_decode hDecode
        hBound with ⟨hBinding, ⟨hAttach, _⟩ | ⟨_, hSome⟩⟩
      · refine ⟨none, hBinding, fids', frame, hAnswer, ?_⟩
        rw [hType, hReply, hAttach]
        rfl
      · exact absurd rfl hSome
    · rcases PseudoRequest.boundFids_of_decode hDecode
        hBound with ⟨hBinding, ⟨_, hNone'⟩ | ⟨hWalk, _⟩⟩
      · cases hNone'
      · refine ⟨some source, hBinding, fids', frame, hAnswer,
          ?_⟩
        rw [hType, hReply, hWalk]
        rfl

end Planten

namespace Planten

/- Every server obeys the law. -/
theorem FileServer.fidLaw
    {Pid : Type}
    [DecidableEq Pid]
    (hasher : Hasher)
    (pids : PidText Pid)
    (server : FileServer) :
    (server.service hasher pids).FidLaw :=
  service_rule hasher pids (ramService_fidLaw hasher)
    (fun _ loop => loop.service_fidLaw) server

end Planten
