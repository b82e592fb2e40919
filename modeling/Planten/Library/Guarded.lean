import Planten.Library.Simulations
import Mathlib.Data.List.ReduceOption
import Mathlib.Data.List.TakeWhile
import Mathlib.Logic.Function.Basic

/-
  Workers behind one lock.

  Workers have nothing in common but a lock.  A worker that
  panics while it holds the lock poisons it, and from then on
  a worker that gets as far as the lock panics.  A crew runs
  its workers side by side; a counter serves them one after
  the other, and closes when one panics.

  Key definitions include:
    * `Fate`, `Guarded`
    * `Guarded.alone`, `Guarded.aloneSent`
    * `Crew.step`, `Crew.sent`
    * `Crew.Outcome`
    * `Guarded.serve`, `Guarded.serveAll`

  Key theorems include:
    * `Crew.exists_culprit`
    * `Crew.outcome`
    * `Crew.outputs_of_clean`
    * `Guarded.serve_eq`
    * `Guarded.serveAll_eq`
-/

------------------------------------------------------------
-- Guarded Workers
------------------------------------------------------------

/-
  How a turn of a worker ends: it goes on and gives an
  output, it ends, or it panics, with the lock or without.
-/
inductive Fate (τ ο : Type) where
| goesOn (kept : τ) (out : ο)
| ends
| panics (held : Bool)

namespace Fate

variable {τ ο : Type}

/- What the worker keeps for its next turn. -/
def kept : Fate τ ο → Option τ
| .goesOn kept _ => some kept
| _ => none

def out : Fate τ ο → Option ο
| .goesOn _ out => some out
| _ => none

/- The turn poisons the lock. -/
def poisons : Fate τ ο → Bool
| .panics held => held
| _ => false

end Fate

/-
  A worker that takes a lock in some of its turns.  Its turn
  is told whether the lock is poisoned.
-/
structure Guarded (τ ε ο : Type) where
  turn : Bool → τ → ε → Fate τ ο
  locks : τ → ε → Bool
  locked :
    ∀ s e, locks s e = true → turn true s e = .panics true
  unlocked :
    ∀ s e, locks s e = false → turn true s e = turn false s e

namespace Guarded

variable {τ ε ο : Type} (g : Guarded τ ε ο)

/- The turn of a worker, unless it has ended. -/
def fate
    (poisoned : Bool)
    (worker : Option τ)
    (e : ε) : Fate τ ο :=
  match worker with
  | none => .ends
  | some s => g.turn poisoned s e

/- A worker that nobody else shares the lock with. -/
def alone
    (worker : Option τ)
    (e : ε) : Option τ :=
  (g.fate false worker e).kept

def aloneSent
    (worker : Option τ)
    (e : ε) : Option ο :=
  (g.fate false worker e).out

/- All that a worker of its own gives. -/
def aloneOutputs
    (worker : Option τ)
    (es : List ε) : List ο :=
  (Run.outputs g.alone g.aloneSent worker es).reduceOption

variable {g}

/- A poisoned lock matters to the turns that take it. -/
theorem fate_of_free
    {poisoned : Bool}
    {worker : Option τ}
    {e : ε}
    (hFree :
      ∀ s, worker = some s → poisoned = true →
        g.locks s e = false) :
    g.fate poisoned worker e = g.fate false worker e := by
  cases worker with
  | none =>
      rfl
  | some s =>
      cases poisoned with
      | false =>
          rfl
      | true =>
          exact g.unlocked s e (hFree s rfl rfl)

theorem aloneOutputs_cons
    (worker : Option τ)
    (e : ε)
    (es : List ε) :
    g.aloneOutputs worker (e :: es) =
      (g.aloneSent worker e).toList ++
        g.aloneOutputs (g.alone worker e) es := by
  unfold aloneOutputs
  rw [Run.outputs]
  cases g.aloneSent worker e <;> rfl

/- A worker that has ended gives nothing more. -/
theorem aloneOutputs_none (es : List ε) :
    g.aloneOutputs none es = [] := by
  induction es with
  | nil =>
      rfl
  | cons e es ih =>
      exact (aloneOutputs_cons none e es).trans ih

end Guarded

------------------------------------------------------------
-- Crews
------------------------------------------------------------

/- Workers side by side, and whether their lock is poisoned. -/
structure Crew (ι τ : Type) where
  poisoned : Bool
  workers : ι → Option τ

namespace Crew

variable {ι τ ε ο : Type} [DecidableEq ι]
variable (g : Guarded τ ε ο)

/- One turn of one worker. -/
def step
    (crew : Crew ι τ)
    (event : ι × ε) : Crew ι τ :=
  let fate :=
    g.fate crew.poisoned (crew.workers event.1) event.2
  ⟨crew.poisoned || fate.poisons,
    Function.update crew.workers event.1 fate.kept⟩

def sent
    (crew : Crew ι τ)
    (event : ι × ε) : Option ο :=
  (g.fate crew.poisoned (crew.workers event.1) event.2).out

/- All that a worker gives in a run. -/
def outputs
    (crew : Crew ι τ)
    (i : ι)
    (events : List (ι × ε)) : List ο :=
  (Run.outputsOf (fun event => event.1 = i) (step g) (sent g)
    crew events).reduceOption

/- What a worker is given to do in a run. -/
def itemsOf
    (i : ι)
    (events : List (ι × ε)) : List ε :=
  (events.filter (fun event => event.1 = i)).map Prod.snd

/-
  The turn after some others is the first that panics with
  the lock.
-/
structure Culprit
    (crew : Crew ι τ)
    (before : List (ι × ε))
    (i : ι)
    (s : τ)
    (e : ε) : Prop where
  clean : (Run.final (step g) crew before).poisoned = false
  alive : (Run.final (step g) crew before).workers i = some s
  panics : g.turn false s e = .panics true

/-
  What becomes of a worker in a run: what would become of it
  alone, or it is cut off, before a turn that takes a lock
  which another worker has poisoned.
-/
inductive Outcome
    (crew : Crew ι τ)
    (i : ι)
    (events : List (ι × ε)) : Prop where
| unharmed
    (hWorker :
      (Run.final (step g) crew events).workers i =
        Run.final g.alone (crew.workers i)
          (itemsOf i events))
    (hOutputs :
      crew.outputs g i events =
        g.aloneOutputs (crew.workers i) (itemsOf i events))
| cut
    {before mid after : List (ι × ε)}
    {j : ι} {s s' : τ} {e e' : ε}
    (hEvents :
      events = before ++ (j, e') :: mid ++ (i, e) :: after)
    (hCulprit : crew.Culprit g before j s' e')
    (hOther : j ≠ i)
    (hAlive :
      (Run.final (step g) crew
        (before ++ (j, e') :: mid)).workers i = some s)
    (hLocks : g.locks s e = true)
    (hEnded :
      (Run.final (step g) crew events).workers i = none)
    (hOutputs :
      crew.outputs g i events =
        g.aloneOutputs (crew.workers i)
          (itemsOf i (before ++ (j, e') :: mid)))

end Crew

------------------------------------------------------------
-- Runs of a Crew
------------------------------------------------------------

namespace Crew

variable {ι τ ε ο : Type} [DecidableEq ι]
variable {g : Guarded τ ε ο} {crew : Crew ι τ}
variable {i j : ι} {e : ε} {events : List (ι × ε)}

theorem itemsOf_cons_self :
    itemsOf i ((i, e) :: events) = e :: itemsOf i events := by
  simp [itemsOf]

theorem itemsOf_cons_of_ne
    (hNe : j ≠ i) :
    itemsOf i ((j, e) :: events) = itemsOf i events := by
  simp [itemsOf, hNe]

theorem outputs_cons_self :
    crew.outputs g i ((i, e) :: events) =
      (crew.sent g (i, e)).toList ++
        (crew.step g (i, e)).outputs g i events := by
  unfold outputs
  rw [Run.outputsOf, if_pos (decide_eq_true rfl)]
  cases crew.sent g (i, e) <;> rfl

theorem outputs_cons_of_ne
    (hNe : j ≠ i) :
    crew.outputs g i ((j, e) :: events) =
      (crew.step g (j, e)).outputs g i events := by
  unfold outputs
  rw [Run.outputsOf, if_neg (by simpa using hNe)]

/- A turn of one worker leaves the others alone. -/
theorem workers_step_of_ne
    (hNe : j ≠ i) :
    (crew.step g (j, e)).workers i = crew.workers i :=
  Function.update_of_ne hNe.symm _ _

theorem workers_step_self :
    (crew.step g (i, e)).workers i =
      (g.fate crew.poisoned (crew.workers i) e).kept :=
  Function.update_self i _ _

/- A worker that has ended does nothing any more. -/
theorem ended
    (hNone : crew.workers i = none)
    (events : List (ι × ε)) :
    (Run.final (step g) crew events).workers i = none ∧
      crew.outputs g i events = [] := by
  induction events generalizing crew with
  | nil =>
      exact ⟨hNone, rfl⟩
  | cons event events ih =>
      rcases event with ⟨j, e⟩
      by_cases hOwn : j = i
      · obtain rfl := hOwn
        have hStill : (crew.step g (j, e)).workers j = none := by
          rw [workers_step_self, hNone]
          rfl
        have hSilent : crew.sent g (j, e) = none := by
          rw [sent, hNone]
          rfl
        refine ⟨(ih hStill).1, ?_⟩
        rw [outputs_cons_self, hSilent, (ih hStill).2]
        rfl
      · have hStill :
            (crew.step g (j, e)).workers i = none := by
          rw [workers_step_of_ne hOwn, hNone]
        refine ⟨(ih hStill).1, ?_⟩
        rw [outputs_cons_of_ne hOwn, (ih hStill).2]

/- A lock that comes to be poisoned has a culprit. -/
theorem exists_culprit
    (hClean : crew.poisoned = false)
    (hPoisoned :
      (Run.final (step g) crew events).poisoned = true) :
    ∃ before j e s after,
      events = before ++ (j, e) :: after ∧
        crew.Culprit g before j s e := by
  induction events generalizing crew with
  | nil =>
      cases hClean.symm.trans hPoisoned
  | cons event events ih =>
      rcases event with ⟨j, e⟩
      cases hStep : (crew.step g (j, e)).poisoned with
      | false =>
          rcases ih hStep hPoisoned with
            ⟨before, j', e', s, after, rfl, hCulprit⟩
          exact ⟨(j, e) :: before, j', e', s, after, rfl,
            hCulprit.clean, hCulprit.alive, hCulprit.panics⟩
      | true =>
          have hPoisons :
              (g.fate false (crew.workers j) e).poisons =
                true := by
            simpa [step, hClean] using hStep
          cases hWorker : crew.workers j with
          | none =>
              rw [hWorker] at hPoisons
              cases hPoisons
          | some s =>
              rw [hWorker, Guarded.fate] at hPoisons
              refine ⟨[], j, e, s, events, rfl, hClean,
                hWorker, ?_⟩
              cases hTurn : g.turn false s e with
              | goesOn kept out | ends =>
                  rw [hTurn] at hPoisons
                  cases hPoisons
              | panics held =>
                  rw [hTurn] at hPoisons
                  exact congrArg Fate.panics hPoisons

/- A culprit has ended. -/
theorem Culprit.ended
    {before : List (ι × ε)}
    {s : τ}
    (hCulprit : crew.Culprit g before j s e)
    (mid : List (ι × ε)) :
    (Run.final (step g) crew
      (before ++ (j, e) :: mid)).workers j = none := by
  rw [Run.final_append, Run.final_cons]
  refine (Crew.ended ?_ mid).1
  rw [workers_step_self, hCulprit.clean, hCulprit.alive,
    Guarded.fate, hCulprit.panics]
  rfl

/- A worker does as it does alone, or is cut off. -/
theorem unharmed_or_cut
    (g : Guarded τ ε ο)
    (crew : Crew ι τ)
    (i : ι)
    (events : List (ι × ε)) :
    ((Run.final (step g) crew events).workers i =
          Run.final g.alone (crew.workers i)
            (itemsOf i events) ∧
        crew.outputs g i events =
          g.aloneOutputs (crew.workers i)
            (itemsOf i events)) ∨
      ∃ before e s after,
        events = before ++ (i, e) :: after ∧
          (Run.final (step g) crew before).poisoned = true ∧
          (Run.final (step g) crew before).workers i =
            some s ∧
          g.locks s e = true ∧
          (Run.final (step g) crew events).workers i =
            none ∧
          crew.outputs g i events =
            g.aloneOutputs (crew.workers i)
              (itemsOf i before) := by
  induction events generalizing crew with
  | nil =>
      exact Or.inl ⟨rfl, rfl⟩
  | cons event events ih =>
      rcases event with ⟨j, e⟩
      by_cases hOwn : j = i
      · obtain rfl := hOwn
        by_cases hFree :
            ∀ s, crew.workers j = some s →
              crew.poisoned = true → g.locks s e = false
        · -- the turn is the one it would be alone
          have hFate := Guarded.fate_of_free hFree
          have hKept :
              (crew.step g (j, e)).workers j =
                g.alone (crew.workers j) e := by
            rw [workers_step_self, hFate, Guarded.alone]
          have hSent :
              crew.sent g (j, e) =
                g.aloneSent (crew.workers j) e := by
            rw [sent, hFate, Guarded.aloneSent]
          rw [itemsOf_cons_self, outputs_cons_self, hSent,
            Guarded.aloneOutputs_cons, ← hKept]
          rcases ih (crew.step g (j, e)) with
            ⟨hWorker, hOutputs⟩ |
              ⟨before, e', s, after, rfl, hPoisoned, hAlive,
                hLocks, hEnded, hOutputs⟩
          · refine Or.inl ⟨?_, by rw [hOutputs]⟩
            rw [Run.final_cons, Run.final_cons, hWorker,
              hKept]
          · refine Or.inr ⟨(j, e) :: before, e', s, after,
              rfl, hPoisoned, hAlive, hLocks, hEnded, ?_⟩
            rw [hOutputs, itemsOf_cons_self,
              Guarded.aloneOutputs_cons, ← hKept]
        · -- the turn takes the poisoned lock
          push Not at hFree
          rcases hFree with ⟨s, hAlive, hPoisoned, hLocks⟩
          have hLocks' : g.locks s e = true := by
            simpa using hLocks
          have hFate :
              g.fate crew.poisoned (crew.workers j) e =
                .panics true := by
            rw [hAlive, hPoisoned]
            exact g.locked s e hLocks'
          have hNone :
              (crew.step g (j, e)).workers j = none := by
            rw [workers_step_self, hFate]
            rfl
          rcases ended hNone events with ⟨hEnded, hSilent⟩
          refine Or.inr ⟨[], e, s, events, rfl, hPoisoned,
            hAlive, hLocks', hEnded, ?_⟩
          rw [outputs_cons_self, hSilent, sent, hFate]
          rfl
      · have hSame :
            (crew.step g (j, e)).workers i =
              crew.workers i :=
          workers_step_of_ne hOwn
        rw [itemsOf_cons_of_ne hOwn, outputs_cons_of_ne hOwn,
          ← hSame]
        rcases ih (crew.step g (j, e)) with
          hUnharmed |
            ⟨before, e', s, after, rfl, hPoisoned, hAlive,
              hLocks, hEnded, hOutputs⟩
        · exact Or.inl hUnharmed
        · refine Or.inr ⟨(j, e) :: before, e', s, after, rfl,
            hPoisoned, hAlive, hLocks, hEnded, ?_⟩
          rw [hOutputs, itemsOf_cons_of_ne hOwn]

/-
  In every run of a crew with a clean lock, whatever the
  order of the turns, a worker does as it does alone, or is
  cut off by a culprit.
-/
theorem outcome
    (g : Guarded τ ε ο)
    {crew : Crew ι τ}
    (hClean : crew.poisoned = false)
    (i : ι)
    (events : List (ι × ε)) :
    crew.Outcome g i events := by
  rcases unharmed_or_cut g crew i events with
    ⟨hWorker, hOutputs⟩ |
      ⟨before, e, s, after, hEvents, hPoisoned, hAlive,
        hLocks, hEnded, hOutputs⟩
  · exact .unharmed hWorker hOutputs
  · rcases exists_culprit hClean hPoisoned with
      ⟨before, j, e', s', mid, rfl, hCulprit⟩
    refine .cut hEvents hCulprit ?_ hAlive hLocks hEnded
      hOutputs
    rintro rfl
    cases (hCulprit.ended mid).symm.trans hAlive

/- A lock that is clean at the end was clean all along. -/
theorem clean_of_clean
    (before after : List (ι × ε))
    (hClean :
      (Run.final (step g) crew (before ++ after)).poisoned =
        false) :
    (Run.final (step g) crew before).poisoned = false := by
  by_contra hNot
  rw [Run.final_append] at hClean
  have hStill :
      (Run.final (step g) (Run.final (step g) crew before)
        after).poisoned = true := by
    refine @Run.invariant _ _ (step g)
      (fun crew' => crew'.poisoned = true) ?_ _ ?_ after
    · intro crew' event hPoisoned
      rw [step, hPoisoned, Bool.true_or]
    · simpa using hNot
  cases hClean.symm.trans hStill

/- Under a clean lock a worker does as it does alone. -/
theorem outputs_of_clean
    (hClean :
      (Run.final (step g) crew events).poisoned = false)
    (i : ι) :
    crew.outputs g i events =
      g.aloneOutputs (crew.workers i) (itemsOf i events) := by
  rcases unharmed_or_cut g crew i events with
    ⟨_, hOutputs⟩ |
      ⟨before, e, s, after, rfl, hPoisoned, _⟩
  · exact hOutputs
  · cases hPoisoned.symm.trans (clean_of_clean before _ hClean)

end Crew

------------------------------------------------------------
-- One Worker after the Other
------------------------------------------------------------

/- How far the turns of a worker have come. -/
inductive Progress where
| waiting
| done
| crashed
deriving DecidableEq, Repr

namespace Guarded

variable {τ ε ο : Type} (g : Guarded τ ε ο)

/-
  The turns of one worker, on what it is given so far: its
  outputs, how far it has come, and the lock after it.
-/
def serve :
    Bool → τ → List ε → List ο × Progress × Bool
| poisoned, _, [] => ([], .waiting, poisoned)
| poisoned, s, e :: es =>
    match g.turn poisoned s e with
    | .goesOn kept out =>
        let (outs, rest) := serve poisoned kept es
        (out :: outs, rest)
    | .ends => ([], .done, poisoned)
    | .panics held => ([], .crashed, poisoned || held)

/-
  Workers served one after the other.  The next is served
  when the last is done; one that panics is the last.
-/
def serveAll
    (start : τ) :
    Bool → List (List ε) → List (List ο)
| _, [] => []
| poisoned, es :: rest =>
    match g.serve poisoned start es with
    | (outs, .done, poisoned) =>
        outs :: serveAll start poisoned rest
    | (outs, _, _) => [outs]

/- A worker comes to its end without a panic. -/
def quits (s : τ) (es : List ε) : Bool :=
  (g.serve false s es).2.1 == .done

variable {g}

/- What a worker gives is what it gives on its own. -/
theorem serve_eq
    (s : τ)
    (es : List ε) :
    (g.serve false s es).1 = g.aloneOutputs (some s) es := by
  induction es generalizing s with
  | nil =>
      rfl
  | cons e es ih =>
      rw [serve, aloneOutputs_cons, aloneSent, alone, fate]
      cases g.turn false s e with
      | goesOn kept out =>
          exact congrArg (List.cons out) (ih kept)
      | ends | panics held =>
          exact (aloneOutputs_none es).symm

/- A worker that is done leaves the lock as it was. -/
theorem poisoned_of_done
    {poisoned : Bool}
    {s : τ}
    {es : List ε}
    (hDone : (g.serve poisoned s es).2.1 = .done) :
    (g.serve poisoned s es).2.2 = poisoned := by
  induction es generalizing s with
  | nil =>
      rfl
  | cons e es ih =>
      rw [serve] at hDone ⊢
      cases hTurn : g.turn poisoned s e with
      | goesOn kept out =>
          simp only [hTurn] at hDone ⊢
          exact ih hDone
      | ends =>
          rfl
      | panics held =>
          simp only [hTurn] at hDone
          cases hDone

/-
  The workers served are those that come to their end, and
  the next one, each as if it were alone: none of them finds
  the lock poisoned.
-/
theorem serveAll_eq
    (start : τ)
    (works : List (List ε)) :
    g.serveAll start false works =
      (works.take
        ((works.takeWhile (g.quits start)).length + 1)).map
          (g.aloneOutputs (some start)) := by
  induction works with
  | nil =>
      rfl
  | cons es rest ih =>
      have hOutputs := serve_eq (g := g) start es
      have hPoisoned :=
        @poisoned_of_done _ _ _ g false start es
      rw [serveAll]
      rcases hServe : g.serve false start es with
        ⟨outs, progress, poisoned⟩
      rw [hServe] at hOutputs hPoisoned
      obtain rfl : outs = _ := hOutputs
      cases progress with
      | done =>
          obtain rfl : poisoned = false := hPoisoned rfl
          have hQuits : g.quits start es = true := by
            rw [quits, hServe]
            rfl
          rw [List.takeWhile_cons_of_pos hQuits]
          exact congrArg (List.cons _) ih
      | waiting | crashed =>
          have hQuits : ¬ g.quits start es = true := by
            rw [quits, hServe]
            exact Bool.false_ne_true
          rw [List.takeWhile_cons_of_neg hQuits]
          rfl

end Guarded
