import Planten.Library.Chronicle
import Planten.RamFs.Runs

/-
  The files as the answered requests have made them.

  Beside the server somebody keeps a chronicle of the requests
  that were answered: what was created, and then, for each
  node and whatever it is called in the meantime, the writes
  and stats that went through a fid at its path.  Nothing
  else has made the files: in every run their content is the
  replay of the chronicle, and nothing in it is ever changed.

  Key definitions include:
    * `Revision`, `Attrs.revise`
    * `FileChronicle.note`
    * `Server.chronicle`

  Key theorems include:
    * `Effect.noted`
    * `Server.noted_step`
    * `Server.files_are_replayed`
-/

------------------------------------------------------------
-- Revisions
------------------------------------------------------------

namespace Planten

/- What a request can do to a node. -/
inductive Revision where
| written (offset : UInt64) (buffer : Bytes)
    (mtime : UInt32)
| restated (stat : Stat)
| renamed (stat : Stat)
| rootRestated (stat : Stat)

namespace Attrs

/- The fields that a stat changes, if its length fits. -/
def restate
    (attrs : Attrs)
    (stat : Stat) : Attrs :=
  match Inode.applyStat stat attrs with
  | .ok attrs' => attrs'
  | .error _ => attrs

/- A node after a revision. -/
def revise
    (attrs : Attrs) : Revision → Attrs
| .written offset buffer mtime =>
    match Inode.overlay attrs.data offset.toNat buffer with
    | .ok data => { attrs with data := data, mtime := mtime }
    | .error _ => attrs
| .restated stat => attrs.restate stat
| .renamed stat =>
    { attrs.restate stat with name := stat.name }
| .rootRestated stat => Inode.applyRootStat stat attrs

end Attrs

end Planten

------------------------------------------------------------
-- Chronicles of a File System
------------------------------------------------------------

namespace Planten

abbrev FileChronicle :=
  Chronicle String Revision Attrs

namespace FileChronicle

variable (j : FileChronicle)

/- A stat of the node at a path that was answered. -/
def noteStat
    (p : List String)
    (stat : Stat) : FileChronicle :=
  match p.getLast? with
  | none => j.record p (.rootRestated stat)
  | some filename =>
      if stat.name ≠ "" ∧ stat.name ≠ filename then
        j.move p.dropLast filename stat.name (.renamed stat)
      else
        j.record p (.restated stat)

/-
  A request through a fid at a path, with the type of its
  reply.  The root takes no writes.
-/
def noteAt
    (clock : Clock)
    (path : String)
    (t : UInt8) : Request → FileChronicle
| .tcreate _ name perm _ =>
    match resolveStep path name with
    | some newPath =>
        if t = RCREATE then
          j.create
            (FlatFs.createdAttrs clock (components newPath)
              perm)
            (components newPath)
        else
          j
    | none => j
| .twrite _ offset buffer =>
    if t = RWRITE ∧ components path ≠ [] then
      j.record (components path)
        (.written offset buffer (asSecs (clock 0)))
    else
      j
| .tremove _ =>
    if t = RREMOVE then j.drop (components path) else j
| .twstat _ record =>
    match decodeStat.run record with
    | .ok (stat, _) =>
        if t = RWSTAT then
          j.noteStat (components path) stat
        else
          j
    | .error _ => j
| _ => j

/- A request, with the type of its reply. -/
def note
    (clock : Clock)
    (fids : FidTable)
    (req : Request)
    (t : UInt8) : FileChronicle :=
  match req.sourceFid?.bind (fun fid => fids.lookup fid) with
  | some state => j.noteAt clock state.path t req
  | none => j

end FileChronicle

namespace Server

variable (hasher : Hasher)

/- What is noted when an event is answered. -/
def note
    (srv : Server)
    (j : FileChronicle)
    (event : Event) : FileChronicle :=
  match event with
  | .request conn msgType _ body clock =>
      match srv.conns conn, Request.decode msgType body,
          srv.replyType hasher event with
      | some fids, .ok req, some t =>
          j.note clock fids req t
      | _, _, _ => j
  | _ => j

/- A server, and the chronicle that is kept beside it. -/
def chronicleStep
    (s : Server × FileChronicle)
    (event : Event) : Server × FileChronicle :=
  (s.1.step hasher event, s.1.note hasher s.2 event)

/- The chronicle of a run. -/
def chronicle
    (srv : Server)
    (events : List Event) : FileChronicle :=
  (Run.final (chronicleStep hasher)
    (srv, .start srv.ramfs.view srv.ramfs.root.val)
    events).2

end Server

end Planten

------------------------------------------------------------
-- What Is Noted
------------------------------------------------------------

namespace Planten

namespace FileChronicle

variable {j : FileChronicle} {clock : Clock}
variable {fids : FidTable} {req : Request}

/- A chronicle is only ever added to, and stays sound. -/
theorem noteStat_law
    (hSound : j.Sound)
    (p : List String)
    (stat : Stat) :
    (j.noteStat p stat).Sound ∧
      j.Extends (j.noteStat p stat) := by
  unfold noteStat
  split
  · exact ⟨Chronicle.sound_record hSound _ _,
      Chronicle.extends_record _ _ _⟩
  · split
    · exact ⟨Chronicle.sound_move hSound _ _ _ _,
        Chronicle.extends_move _ _ _ _ _⟩
    · exact ⟨Chronicle.sound_record hSound _ _,
        Chronicle.extends_record _ _ _⟩

theorem noteAt_law
    (hSound : j.Sound)
    (clock : Clock)
    (path : String)
    (t : UInt8)
    (req : Request) :
    (j.noteAt clock path t req).Sound ∧
      j.Extends (j.noteAt clock path t req) := by
  have hSame : j.Sound ∧ j.Extends j := ⟨hSound, .refl j⟩
  cases req with
  | tcreate fid name perm mode =>
      simp only [noteAt]
      split
      · split
        · exact ⟨Chronicle.sound_create hSound _ _,
            Chronicle.extends_create _ _ _⟩
        · exact hSame
      · exact hSame
  | twrite fid offset buffer =>
      simp only [noteAt]
      split
      · exact ⟨Chronicle.sound_record hSound _ _,
          Chronicle.extends_record _ _ _⟩
      · exact hSame
  | tremove fid =>
      simp only [noteAt]
      split
      · exact ⟨Chronicle.sound_drop hSound _,
          Chronicle.extends_drop _ _⟩
      · exact hSame
  | twstat fid record =>
      simp only [noteAt]
      split
      · split
        · exact noteStat_law hSound _ _
        · exact hSame
      · exact hSame
  | _ =>
      exact hSame

theorem note_law
    (hSound : j.Sound)
    (clock : Clock)
    (fids : FidTable)
    (req : Request)
    (t : UInt8) :
    (j.note clock fids req t).Sound ∧
      j.Extends (j.note clock fids req t) := by
  unfold note
  split
  · exact noteAt_law hSound _ _ _ _
  · exact ⟨hSound, .refl j⟩

/- Of a request that is refused nothing is noted. -/
theorem noteAt_of_rerror
    (clock : Clock)
    (path : String)
    (req : Request) :
    j.noteAt clock path RERROR req = j := by
  cases req with
  | tcreate fid name perm mode =>
      simp only [noteAt]
      split
      · exact if_neg (by decide)
      · rfl
  | twrite fid offset buffer =>
      have hNot :
          ¬ (RERROR = RWRITE ∧ components path ≠ []) :=
        fun hBoth => absurd hBoth.1 (by decide)
      rw [noteAt, if_neg hNot]
  | tremove fid =>
      rw [noteAt, if_neg (by decide)]
  | twstat fid record =>
      simp only [noteAt]
      split
      · exact if_neg (by decide)
      · rfl
  | _ =>
      rfl

theorem note_of_rerror
    (clock : Clock)
    (fids : FidTable)
    (req : Request) :
    j.note clock fids req RERROR = j := by
  unfold note
  split
  · exact noteAt_of_rerror clock _ req
  · rfl

/- What is noted of a request is noted at the fid's path. -/
theorem note_of_lookup
    {fid : UInt32}
    {state : FidState}
    (hSource : req.sourceFid? = some fid)
    (hFid : fids.lookup fid = some state)
    (t : UInt8) :
    j.note clock fids req t =
      j.noteAt clock state.path t req := by
  rw [note, hSource, Option.bind_some, hFid]

end FileChronicle

end Planten

------------------------------------------------------------
-- What Is Noted Is What Is Done
------------------------------------------------------------

namespace Planten

open FileChronicle

variable {hasher : Hasher} {clock : Clock}
variable {j : FileChronicle} {fs fs' : RamFs}
variable {fids fids' : FidTable}

theorem noted_create
    (hView : j.view Attrs.revise = fs.view)
    (hSound : j.Sound)
    {newPath : String}
    {perm : UInt32}
    (hFresh : fs.stat newPath = none)
    (hOp : createNode clock fs newPath perm = .ok (fs', ())) :
    (j.create
        (FlatFs.createdAttrs clock (components newPath) perm)
        (components newPath)).view Attrs.revise =
      fs'.view := by
  have hNone := (fs.stat_eq_none_iff newPath).mp hFresh
  have hResult :=
    RamFs.viewResult_ok hOp (viewResult_createNode perm hNone)
  rw [Chronicle.view_create hSound, hView]
  split at hResult
  · cases hResult
  · exact (pair_eq_of_ok_eq hResult).1

theorem noted_write
    (hView : j.view Attrs.revise = fs.view)
    (hSound : j.Sound)
    {path : String}
    {offset : UInt64}
    {buffer : Bytes}
    {written : Option UInt32}
    (hOp :
      fs.write path offset buffer clock =
        .ok (fs', written)) :
    (if components path ≠ [] then
      j.record (components path)
        (.written offset buffer (asSecs (clock 0)))
    else
      j).view Attrs.revise = fs'.view := by
  have hResult :=
    RamFs.viewResult_ok hOp
      (fs.view_write path offset buffer clock)
  unfold FlatFs.write at hResult
  split at hResult
  · rename_i hRoot
    rw [if_neg (not_not.mpr hRoot), hView]
    exact (pair_eq_of_ok_eq hResult).1
  · rename_i hBelow
    rw [if_pos hBelow]
    split at hResult
    · rename_i hNone
      rw [← hView] at hNone
      rw [Chronicle.record_of_missing hNone, hView]
      exact (pair_eq_of_ok_eq hResult).1
    · rename_i attrs hNode
      rw [bind_eq_ok_iff] at hResult
      rcases hResult with ⟨data, hData, hResult⟩
      rw [← hView] at hNode
      rw [Chronicle.view_record hSound hNode, hView,
        ← (pair_eq_of_ok_eq hResult).1, Attrs.revise]
      simp only [hData]

theorem noted_remove
    (hView : j.view Attrs.revise = fs.view)
    {path : String}
    (hOp : fs.remove path = .ok (fs', some ())) :
    (j.drop (components path)).view Attrs.revise =
      fs'.view := by
  have hResult :=
    Except.ok.inj
      (RamFs.viewResult_ok hOp (fs.view_remove path))
  rw [Chronicle.view_drop, hView]
  unfold FlatFs.remove at hResult
  split at hResult
  · cases (Prod.mk.inj hResult).2
  · exact (Prod.mk.inj hResult).1

theorem noted_wstat
    (hView : j.view Attrs.revise = fs.view)
    (hSound : j.Sound)
    {path : String}
    {stat : Stat}
    (hOp :
      fs.wstatFromStat path stat = .ok (fs', some ())) :
    (j.noteStat (components path) stat).view Attrs.revise =
      fs'.view := by
  have hResult :=
    RamFs.viewResult_ok hOp (fs.view_wstatFromStat path stat)
  unfold FlatFs.wstatFromStat at hResult
  unfold noteStat
  cases hNode : fs.view (components path) with
  | none =>
      rw [hNode] at hResult
      cases (pair_eq_of_ok_eq hResult).2
  | some attrs =>
      rw [hNode] at hResult
      rw [← hView] at hNode
      simp only at hResult ⊢
      cases hLast : (components path).getLast? with
      | none =>
          simp only [hLast] at hResult
          simp only
          rw [Chronicle.view_record hSound hNode, hView]
          exact (pair_eq_of_ok_eq hResult).1
      | some filename =>
          simp only [hLast] at hResult
          simp only
          rw [bind_eq_ok_iff] at hResult
          rcases hResult with ⟨attrs', hAttrs, hResult⟩
          have hRestate : attrs.restate stat = attrs' := by
            rw [Attrs.restate, hAttrs]
          by_cases hRename :
            stat.name ≠ "" ∧ stat.name ≠ filename
          · rw [if_pos hRename] at hResult ⊢
            split at hResult
            · cases (pair_eq_of_ok_eq hResult).2
            · rw [← RamFs.dropLast_append_of_getLast? hLast]
                at hNode
              rw [Chronicle.view_move hSound hNode, hView,
                Attrs.revise, hRestate]
              exact (pair_eq_of_ok_eq hResult).1
          · rw [if_neg hRename] at hResult ⊢
            rw [Chronicle.view_record hSound hNode, hView,
              Attrs.revise, hRestate]
            exact (pair_eq_of_ok_eq hResult).1

/- The files after a request are those of the chronicle. -/
theorem Effect.noted
    {req : Request}
    {reply : Reply}
    (hView : j.view Attrs.revise = fs.view)
    (hSound : j.Sound)
    (hEffect :
      Effect hasher clock fs fids req fs' fids' reply) :
    (FileChronicle.note j clock fids req
        reply.msgType).view Attrs.revise =
      fs'.view := by
  cases hEffect with
  | create hFid hStep hFresh hOp hStat =>
      rw [note_of_lookup rfl hFid, noteAt, hStep]
      exact noted_create hView hSound hFresh hOp
  | write hFid hMode hAllowed hOp =>
      rw [note_of_lookup rfl hFid, noteAt]
      simp only [Reply.msgType, true_and]
      exact noted_write hView hSound hOp
  | remove hFid hOp =>
      rw [note_of_lookup rfl hFid]
      exact noted_remove hView hOp
  | removeFailed hFid hOp =>
      rw [RamFs.remove_eq_none hOp, Reply.msgType,
        note_of_rerror]
      exact hView
  | wstat hFid hRecord hOp =>
      rw [note_of_lookup rfl hFid, noteAt, hRecord]
      exact noted_wstat hView hSound hOp
  | refused hRefusal =>
      rw [Reply.msgType, note_of_rerror]
      exact hView
  | opened hFid hStat
  | read hFid hMode hAllowed hData hWindow
  | stat hFid hStat | clone hFid =>
      rw [note_of_lookup rfl hFid]
      exact hView
  | version | auth | flush | attach | walk hNames hTarget
  | clunk =>
      exact hView

end Planten

------------------------------------------------------------
-- Runs
------------------------------------------------------------

namespace Planten

namespace Server

variable {hasher : Hasher}

theorem note_law
    (hasher : Hasher)
    {j : FileChronicle}
    (hSound : j.Sound)
    (srv : Server)
    (event : Event) :
    (srv.note hasher j event).Sound ∧
      j.Extends (srv.note hasher j event) := by
  cases event with
  | request conn msgType tag body clock =>
      simp only [note]
      split
      · exact FileChronicle.note_law hSound _ _ _ _
      · exact ⟨hSound, .refl j⟩
  | accept conn | close conn =>
      exact ⟨hSound, .refl j⟩

/- Of an event without a reply nothing is noted. -/
theorem note_of_silence
    {srv : Server}
    {event : Event}
    (hSilent : srv.replyType hasher event = none)
    (j : FileChronicle) :
    srv.note hasher j event = j := by
  cases event with
  | request conn msgType tag body clock =>
      simp only [note, hSilent]
      split
      · rename_i hReply
        cases hReply
      · rfl
  | accept conn | close conn =>
      rfl

/- The files after an event are those of the chronicle. -/
theorem noted_step
    {j : FileChronicle}
    {srv : Server}
    (hView : j.view Attrs.revise = srv.ramfs.view)
    (hSound : j.Sound)
    (event : Event) :
    (srv.note hasher j event).view Attrs.revise =
      (srv.step hasher event).ramfs.view := by
  rcases step_spec hasher srv event with
    ⟨reply, hStep, hType⟩
  revert hStep
  generalize hAfter : srv.step hasher event = srv'
  intro hStep
  cases hStep with
  | accepted hClosed | reopened hOpen | lost hClosed
  | closed | malformed hConn hDecode
  | badName hConn hDecode hNames
  | panicked hConn hDecode hHazard hPanics =>
      rw [note_of_silence hType]
      exact hView
  | served hConn hDecode hEffect hFrame hSent =>
      simp only [note, hConn, hDecode, hType, Option.map_some]
      exact hEffect.noted hView hSound

/- A chronicle that is right stays right along a run. -/
theorem chronicle_law
    (hasher : Hasher)
    {srv : Server}
    {j : FileChronicle}
    (hView : j.view Attrs.revise = srv.ramfs.view)
    (hSound : j.Sound)
    (events : List Event) :
    let s := Run.final (chronicleStep hasher) (srv, j) events
    s.1 = Run.final (step hasher) srv events ∧
      s.2.view Attrs.revise = s.1.ramfs.view ∧
      s.2.Sound ∧ j.Extends s.2 := by
  induction events generalizing srv j with
  | nil =>
      exact ⟨rfl, hView, hSound, .refl j⟩
  | cons event events ih =>
      have hLaw := note_law hasher hSound srv event
      have hNext :=
        ih (noted_step hView hSound event) hLaw.1
      exact ⟨hNext.1, hNext.2.1, hNext.2.2.1,
        hLaw.2.trans hNext.2.2.2⟩

/-
  In every run of the server, from any state, the files are
  the replay of the requests that were answered, each node's
  own since it was made; no node is at two paths, and what
  was noted at any time stays noted.
-/
theorem files_are_replayed
    (hasher : Hasher)
    (srv : Server)
    (events : List Event) :
    (Run.final (step hasher) srv events).ramfs.view =
        (srv.chronicle hasher events).view Attrs.revise ∧
      (srv.chronicle hasher events).Sound ∧
      ∀ before after,
        events = before ++ after →
          (srv.chronicle hasher before).Extends
            (srv.chronicle hasher events) := by
  have hStart :=
    Chronicle.view_start Attrs.revise srv.ramfs.view
      srv.ramfs.root.val
  have hSound :
      (Chronicle.start srv.ramfs.view srv.ramfs.root.val :
        FileChronicle).Sound :=
    Chronicle.sound_start _ _
  have hAll := chronicle_law hasher hStart hSound events
  refine ⟨?_, hAll.2.2.1, ?_⟩
  · rw [← hAll.1]
    exact hAll.2.1.symm
  · rintro before after rfl
    have hBefore := chronicle_law hasher hStart hSound before
    have hAfter :=
      chronicle_law hasher hBefore.2.1 hBefore.2.2.1 after
    unfold chronicle
    rw [Run.final_append]
    exact hAfter.2.2.2

end Server

end Planten
