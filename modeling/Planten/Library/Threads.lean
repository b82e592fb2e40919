import Planten.Library.Simulations
import Mathlib.Data.List.ReduceOption
import Mathlib.Logic.Function.Basic

/-
  Threads that share a state under a lock.

  A thread is what is left to do for one job: sections under
  the lock, which nobody interrupts, with local work between
  them.  A pool runs the threads of its workers in any order,
  section by section.  A desk does each job at once.

  When each thread does its work in one section, a pool is
  linearizable: every run of it is a run of a desk, in which
  each job is done at a moment when its worker was busy with
  it, and every worker does the jobs that it was given, in
  order, each of them once.

  Key definitions include:
    * `Thread`, `Thread.run`
    * `Thread.Single`
    * `Pool.step`, `Pool.emitted`
    * `Desk.step`, `Desk.emitted`
    * `Pool.Commits`
    * `Pool.given`, `Worker.jobs`

  Key theorems include:
    * `Thread.run_bind`
    * `Pool.step_linearizes`
    * `Pool.linearizes`
-/

------------------------------------------------------------
-- Threads
------------------------------------------------------------

/-
  A thread ends, or changes the shared state in a section and
  goes on with what the section found.
-/
inductive Thread (σ α : Type) where
| done (a : α)
| locked (change : σ → σ) (next : σ → Thread σ α)

namespace Thread

variable {σ α β : Type}

/- Run a thread without interruption. -/
def run : Thread σ α → σ → σ × α
| .done a, s => (s, a)
| .locked change next, s => (next s).run (change s)

/- One thread after another. -/
def bind : Thread σ α → (α → Thread σ β) → Thread σ β
| .done a, f => f a
| .locked change next, f =>
    .locked change (fun s => (next s).bind f)

@[simp] theorem run_done
    (a : α)
    (s : σ) :
    (done a).run s = (s, a) := rfl

theorem run_bind
    (t : Thread σ α)
    (f : α → Thread σ β)
    (s : σ) :
    (t.bind f).run s = (f (t.run s).2).run (t.run s).1 := by
  induction t generalizing s with
  | done a =>
      rfl
  | locked change next ih =>
      exact ih s (change s)

/-
  The work is done in one section.  A section before it
  changes nothing, and what comes after such a section is
  the whole thread again.
-/
def Single : Thread σ α → Prop
| .done _ => True
| .locked change next =>
    ∀ s, (∃ a, next s = .done a) ∨
      change s = s ∧ (next s).Single ∧
        ∀ s', (next s).run s' = (locked change next).run s'

/- What is made of the result does not touch the state. -/
theorem Single.map
    {t : Thread σ α}
    (hSingle : t.Single)
    (f : α → β) :
    (t.bind (fun a => .done (f a))).Single := by
  induction t with
  | done a =>
      trivial
  | locked change next ih =>
      intro s
      rcases hSingle s with
        ⟨a, hDone⟩ | ⟨hChange, hRest, hAgain⟩
      · refine Or.inl ⟨f a, ?_⟩
        simp only [hDone, bind]
      · refine Or.inr ⟨hChange, ih s hRest, fun s' => ?_⟩
        have hRun := hAgain s'
        rw [run] at hRun
        simp only [run, run_bind, hRun]

end Thread

------------------------------------------------------------
-- Pools and Desks
------------------------------------------------------------

/- A worker of a pool, with what it keeps between jobs. -/
inductive Worker (σ τ ε ο : Type) where
| idle (kept : τ)
| busy (job : ε) (rest : Thread σ (τ × ο))

/- The shared state and the workers. -/
structure Pool (σ ι τ ε ο : Type) where
  shared : σ
  workers : ι → Worker σ τ ε ο

/- A job is given out, or a worker goes on. -/
inductive Move (ι ε : Type) where
| start (job : ε)
| resume (i : ι)

/- The shared state and what the workers keep. -/
structure Desk (σ ι τ : Type) where
  shared : σ
  kept : ι → τ

section

variable {σ ι τ ε ο : Type} [DecidableEq ι]
variable (assignee : ε → ι)
variable (program : ε → τ → Thread σ (τ × ο))

/- The worker of a move. -/
def Move.worker : Move ι ε → ι
| .start job => assignee job
| .resume i => i

/-
  A busy worker takes no job.  A thread that has ended
  leaves its worker idle.
-/
def Pool.step
    (pool : Pool σ ι τ ε ο) :
    Move ι ε → Pool σ ι τ ε ο
| .start job =>
    match pool.workers (assignee job) with
    | .idle kept =>
        { pool with
          workers :=
            Function.update pool.workers (assignee job)
              (.busy job (program job kept)) }
    | .busy _ _ => pool
| .resume i =>
    match pool.workers i with
    | .idle _ => pool
    | .busy _ (.done (kept, _)) =>
        { pool with
          workers :=
            Function.update pool.workers i (.idle kept) }
    | .busy job (.locked change next) =>
        ⟨change pool.shared,
          Function.update pool.workers i
            (.busy job (next pool.shared))⟩

/- A thread that has ended gives its output. -/
def Pool.emitted
    (pool : Pool σ ι τ ε ο) :
    Move ι ε → Option ο
| .start _ => none
| .resume i =>
    match pool.workers i with
    | .busy _ (.done (_, out)) => some out
    | _ => none

def Desk.step
    (desk : Desk σ ι τ)
    (job : ε) : Desk σ ι τ :=
  let result :=
    (program job (desk.kept (assignee job))).run desk.shared
  ⟨result.1,
    Function.update desk.kept (assignee job) result.2.1⟩

def Desk.emitted
    (desk : Desk σ ι τ)
    (job : ε) : ο :=
  ((program job (desk.kept (assignee job))).run
    desk.shared).2.2

/- The job that a worker is busy with. -/
def Worker.jobs : Worker σ τ ε ο → List ε
| .idle _ => []
| .busy job _ => [job]

/- An idle worker takes the job it is given. -/
def Pool.taken
    (pool : Pool σ ι τ ε ο) :
    Move ι ε → Option ε
| .start job =>
    match pool.workers (assignee job) with
    | .idle _ => some job
    | .busy _ _ => none
| .resume _ => none

/-
  Jobs are done at some of the moves of a run: at a move of
  the worker that is busy with the job.
-/
def Pool.Commits
    (pool : Pool σ ι τ ε ο) :
    List (Move ι ε) → List (Option ε) → Prop
| [], [] => True
| move :: moves, commit :: commits =>
    (∀ job, commit = some job →
      move = .resume (assignee job) ∧
        ∃ rest, pool.workers (assignee job) =
          .busy job rest) ∧
      (pool.step assignee program move).Commits moves commits
| _, _ => False

/- The jobs that a worker takes in a run of a pool. -/
def Pool.given
    (pool : Pool σ ι τ ε ο)
    (i : ι)
    (moves : List (Move ι ε)) : List ε :=
  (Run.outputsOf (fun move => move.worker assignee = i)
    (Pool.step assignee program) (Pool.taken assignee) pool
    moves).reduceOption

/- The outputs of a worker in a run of a pool. -/
def Pool.outputs
    (pool : Pool σ ι τ ε ο)
    (i : ι)
    (moves : List (Move ι ε)) : List ο :=
  (Run.outputsOf (fun move => move.worker assignee = i)
    (Pool.step assignee program) Pool.emitted pool
    moves).reduceOption

/- The outputs of the jobs of a worker at a desk. -/
def Desk.outputs
    (desk : Desk σ ι τ)
    (i : ι)
    (jobs : List ε) : List ο :=
  Run.outputsOf (fun job => assignee job = i)
    (Desk.step assignee program)
    (Desk.emitted assignee program) desk jobs

end

------------------------------------------------------------
-- Moves at a Desk
------------------------------------------------------------

section

variable {σ ι τ ε ο : Type} [DecidableEq ι]
variable {assignee : ε → ι}
variable {program : ε → τ → Thread σ (τ × ο)}

/- Jobs that are not done, and outputs not given. -/
structure Debt (ε ο : Type) where
  jobs : List ε
  outs : List ο

/-
  A worker beside what the desk keeps for it, with what it
  still owes: a job that is not done yet gives the result it
  would give now, and one that is done is over but for its
  output.
-/
inductive Worker.Owes
    (assignee : ε → ι)
    (program : ε → τ → Thread σ (τ × ο))
    (i : ι) :
    Worker σ τ ε ο → τ → Debt ε ο → Prop where
| idle (kept : τ) :
    Owes assignee program i (.idle kept) kept ⟨[], []⟩
| pending
    {job : ε} {rest : Thread σ (τ × ο)} {kept : τ}
    (hJob : assignee job = i)
    (hSingle : rest.Single)
    (hSame : ∀ s, rest.run s = (program job kept).run s) :
    Owes assignee program i (.busy job rest) kept
      ⟨[job], []⟩
| settled (job : ε) (kept : τ) (out : ο) :
    Owes assignee program i (.busy job (.done (kept, out)))
      kept ⟨[], [out]⟩

omit [DecidableEq ι] in
/- Only the job a worker is busy with is not done. -/
theorem Worker.Owes.undone_of_jobs
    {i : ι}
    {worker : Worker σ τ ε ο}
    {kept : τ}
    {debt : Debt ε ο}
    (hOwes : worker.Owes assignee program i kept debt) :
    debt.jobs <+: worker.jobs := by
  cases hOwes with
  | idle =>
      exact List.prefix_refl _
  | pending =>
      exact List.prefix_refl _
  | settled =>
      exact List.nil_prefix

/- A pool beside a desk, with what is still owed. -/
structure Pool.Beside
    (assignee : ε → ι)
    (program : ε → τ → Thread σ (τ × ο))
    (pool : Pool σ ι τ ε ο)
    (desk : Desk σ ι τ)
    (owed : ι → Debt ε ο) : Prop where
  shared : pool.shared = desk.shared
  workers :
    ∀ i, (pool.workers i).Owes assignee program i
      (desk.kept i) (owed i)

namespace Pool

variable {pool : Pool σ ι τ ε ο} {desk : Desk σ ι τ}
variable {owed : ι → Debt ε ο}

/- One worker and what is kept for it change together. -/
theorem Beside.update
    {i : ι}
    {worker : Worker σ τ ε ο}
    {kept : τ}
    {debt : Debt ε ο}
    (hBeside : pool.Beside assignee program desk owed)
    (s : σ)
    (hOwes : worker.Owes assignee program i kept debt) :
    Beside assignee program
      ⟨s, Function.update pool.workers i worker⟩
      ⟨s, Function.update desk.kept i kept⟩
      (Function.update owed i debt) := by
  refine ⟨rfl, fun j => ?_⟩
  by_cases hHere : j = i
  · subst hHere
    simpa only [Function.update_self] using hOwes
  · simpa only [Function.update_of_ne hHere] using
      hBeside.workers j

/- The same where the desk does nothing. -/
theorem Beside.update_worker
    {i : ι}
    {worker : Worker σ τ ε ο}
    {debt : Debt ε ο}
    (hBeside : pool.Beside assignee program desk owed)
    (hOwes :
      worker.Owes assignee program i (desk.kept i) debt) :
    Beside assignee program
      ⟨pool.shared, Function.update pool.workers i worker⟩
      desk (Function.update owed i debt) := by
  have hNext := hBeside.update pool.shared hOwes
  rw [Function.update_eq_self] at hNext
  refine ⟨hBeside.shared, hNext.workers⟩

/- The job that a move does at the desk, if it does one. -/
structure StepCommits
    (assignee : ε → ι)
    (program : ε → τ → Thread σ (τ × ο))
    (pool : Pool σ ι τ ε ο)
    (desk : Desk σ ι τ)
    (owed : ι → Debt ε ο)
    (move : Move ι ε)
    (commit : Option ε)
    (owed' : ι → Debt ε ο) : Prop where
  busy :
    ∀ job, commit = some job →
      move = .resume (assignee job) ∧
        ∃ rest, pool.workers (assignee job) =
          .busy job rest
  beside :
    (pool.step assignee program move).Beside assignee program
      (commit.elim desk (desk.step assignee program)) owed'
  jobs :
    ∀ i,
      commit.elim [] (fun job =>
        if assignee job = i then [job] else []) ++
          (owed' i).jobs =
        (owed i).jobs ++
          (if move.worker assignee = i then
            (pool.taken assignee move).toList
          else
            [])
  outputs :
    ∀ i,
      (if move.worker assignee = i then
        (pool.emitted move).toList
      else
        []) ++ (owed' i).outs =
      (owed i).outs ++
        commit.elim [] (fun job =>
          if assignee job = i then
            [desk.emitted assignee program job]
          else
            [])

/- A move at which nothing is taken, done or given. -/
theorem StepCommits.quiet
    {move : Move ι ε}
    (hBeside :
      (pool.step assignee program move).Beside assignee
        program desk owed)
    (hTaken : pool.taken assignee move = none)
    (hEmitted : pool.emitted move = none) :
    StepCommits assignee program pool desk owed move none
      owed := by
  refine ⟨fun _ hNone => (nomatch hNone), hBeside, ?_, ?_⟩
  · intro i
    simp [hTaken]
  · intro i
    simp [hEmitted]

/- One part of what is owed, when one worker changes it. -/
theorem part_of_update
    {α : Type}
    (part : Debt ε ο → List α)
    {i : ι}
    {debt debt' : Debt ε ο}
    {now later : List α}
    (hOwed : owed i = debt)
    (hSame : now ++ part debt' = part debt ++ later)
    (j : ι) :
    (if i = j then now else []) ++
        part (Function.update owed i debt' j) =
      part (owed j) ++ (if i = j then later else []) := by
  by_cases hHere : i = j
  · subst hHere
    rw [if_pos rfl, if_pos rfl, Function.update_self, hOwed,
      hSame]
  · rw [if_neg hHere, if_neg hHere,
      Function.update_of_ne (Ne.symm hHere), List.append_nil,
      List.nil_append]

/- What a job gives, when it is one of this worker's. -/
theorem elim_of_worker
    {α : Type}
    {i : ι}
    {commit : Option ε}
    (f : ε → α)
    (hHere : ∀ job, commit = some job → assignee job = i)
    (j : ι) :
    commit.elim [] (fun job =>
        if assignee job = j then [f job] else []) =
      if i = j then (commit.map f).toList else [] := by
  cases commit with
  | none =>
      exact (ite_self _).symm
  | some job =>
      rw [Option.elim_some, hHere job rfl]
      rfl

/- A move of one worker changes what that one owes. -/
theorem StepCommits.update
    {move : Move ι ε}
    {commit : Option ε}
    {debt : Debt ε ο}
    (debt' : Debt ε ο)
    (hOwed : owed (move.worker assignee) = debt)
    (hBusy :
      ∀ job, commit = some job →
        move = .resume (assignee job) ∧
          ∃ rest, pool.workers (assignee job) =
            .busy job rest)
    (hBeside :
      (pool.step assignee program move).Beside assignee
        program (commit.elim desk (desk.step assignee program))
        (Function.update owed (move.worker assignee) debt'))
    (hJobs :
      commit.toList ++ debt'.jobs =
        debt.jobs ++ (pool.taken assignee move).toList)
    (hOutputs :
      (pool.emitted move).toList ++ debt'.outs =
        debt.outs ++
          (commit.map
            (desk.emitted assignee program)).toList) :
    StepCommits assignee program pool desk owed move commit
      (Function.update owed (move.worker assignee)
        debt') := by
  have hHere (job : ε) (hSome : commit = some job) :
      assignee job = move.worker assignee := by
    rw [(hBusy job hSome).1]
    rfl
  refine ⟨hBusy, hBeside, fun i => ?_, fun i => ?_⟩
  · rw [elim_of_worker (fun job => job) hHere,
      Option.map_id']
    exact part_of_update Debt.jobs hOwed hJobs i
  · rw [elim_of_worker (desk.emitted assignee program) hHere]
    exact part_of_update Debt.outs hOwed hOutputs i

/- A job is given out: the desk does nothing yet. -/
theorem step_start
    (hSingle : ∀ job kept, (program job kept).Single)
    (hBeside : pool.Beside assignee program desk owed)
    (job : ε) :
    ∃ owed',
      StepCommits assignee program pool desk owed
        (.start job) none owed' := by
  have hOwes := hBeside.workers (assignee job)
  cases hWorker : pool.workers (assignee job) with
  | busy other rest =>
      refine ⟨owed, .quiet ?_ ?_ rfl⟩
      · simpa only [step, hWorker] using hBeside
      · simp only [taken, hWorker]
  | idle kept =>
      rw [hWorker] at hOwes
      generalize hKept : desk.kept (assignee job) = kept',
        hOwed : owed (assignee job) = debt at hOwes
      cases hOwes
      have hPending :
          (Worker.busy job (program job kept)).Owes
            assignee program (assignee job)
            (desk.kept (assignee job)) ⟨[job], []⟩ := by
        rw [hKept]
        exact .pending rfl (hSingle job kept) (fun _ => rfl)
      refine ⟨_,
        .update ⟨[job], []⟩ hOwed
          (fun _ hNone => (nomatch hNone)) ?_ ?_ rfl⟩
      · simp only [step, hWorker, Option.elim_none]
        exact hBeside.update_worker hPending
      · simp only [taken, hWorker]
        rfl

/- A thread that has ended gives what is owed. -/
theorem step_done
    {i : ι}
    {job : ε}
    {kept : τ}
    {out : ο}
    (hBeside : pool.Beside assignee program desk owed)
    (hWorker :
      pool.workers i = .busy job (.done (kept, out))) :
    ∃ commit owed',
      StepCommits assignee program pool desk owed
        (.resume i) commit owed' := by
  have hOwes := hBeside.workers i
  have hEmitted :
      pool.emitted (.resume i : Move ι ε) = some out := by
    simp only [emitted, hWorker]
  rw [hWorker] at hOwes
  generalize hKept : desk.kept i = kept',
    hOwed : owed i = debt at hOwes
  cases hOwes with
  | pending hJob hSingle hSame =>
      -- the job touches nothing and is done now
      subst hJob
      have hRun := hSame desk.shared
      rw [Thread.run_done, ← hKept] at hRun
      refine ⟨some job, _,
        .update ⟨[], []⟩ hOwed ?_ ?_ rfl ?_⟩
      · rintro _ ⟨⟩
        exact ⟨rfl, _, hWorker⟩
      · have hNext :=
          hBeside.update desk.shared
            (@Worker.Owes.idle _ _ _ _ _ assignee program
              (assignee job) kept)
        simp only [step, hWorker, Option.elim_some,
          Desk.step, ← hRun]
        rw [hBeside.shared]
        exact hNext
      · rw [hEmitted, Option.map_some, Desk.emitted, ← hRun]
        rfl
  | settled =>
      refine ⟨none, _,
        .update ⟨[], []⟩ hOwed
          (fun _ hNone => (nomatch hNone)) ?_ rfl ?_⟩
      · simp only [step, hWorker, Option.elim_none]
        apply hBeside.update_worker
        rw [hKept]
        exact .idle kept
      · rw [hEmitted]
        rfl

/- A section is the one of the work, or comes before it. -/
theorem step_locked
    {i : ι}
    {job : ε}
    {change : σ → σ}
    {next : σ → Thread σ (τ × ο)}
    (hBeside : pool.Beside assignee program desk owed)
    (hWorker :
      pool.workers i = .busy job (.locked change next)) :
    ∃ commit owed',
      StepCommits assignee program pool desk owed
        (.resume i) commit owed' := by
  have hOwes := hBeside.workers i
  have hEmitted : pool.emitted (.resume i : Move ι ε) = none := by
    simp only [emitted, hWorker]
  rw [hWorker] at hOwes
  generalize hKept : desk.kept i = kept,
    hOwed : owed i = debt at hOwes
  cases hOwes with
  | pending hJob hSingle hSame =>
      subst hJob
      rcases hSingle pool.shared with
        ⟨⟨kept', out⟩, hDone⟩ | ⟨hChange, hRest, hAgain⟩
      · -- the work is done in this section
        have hRun := hSame pool.shared
        rw [Thread.run, hDone, Thread.run_done, ← hKept,
          hBeside.shared] at hRun
        refine ⟨some job, _,
          .update ⟨[], [out]⟩ hOwed ?_ ?_ rfl ?_⟩
        · rintro _ ⟨⟩
          exact ⟨rfl, _, hWorker⟩
        · simp only [step, hWorker, hDone, Option.elim_some,
            Desk.step, ← hRun]
          rw [hBeside.shared]
          exact hBeside.update (change desk.shared)
            (.settled job kept' out)
        · rw [hEmitted, Option.map_some, Desk.emitted,
            ← hRun]
          rfl
      · refine ⟨none, owed, .quiet ?_ rfl hEmitted⟩
        have hPending :
            (Worker.busy job (next pool.shared)).Owes
              assignee program (assignee job)
              (desk.kept (assignee job))
              (owed (assignee job)) := by
          rw [hKept, hOwed]
          exact .pending rfl hRest
            (fun s => (hAgain s).trans (hSame s))
        have hNext := hBeside.update_worker hPending
        rw [Function.update_eq_self] at hNext
        simpa only [step, hWorker, hChange] using hNext

/- Each move is a step of the desk, or none. -/
theorem step_linearizes
    (hSingle : ∀ job kept, (program job kept).Single)
    (hBeside : pool.Beside assignee program desk owed)
    (move : Move ι ε) :
    ∃ commit owed',
      StepCommits assignee program pool desk owed move
        commit owed' := by
  cases move with
  | start job =>
      exact ⟨none, step_start hSingle hBeside job⟩
  | resume i =>
      cases hWorker : pool.workers i with
      | idle kept =>
          refine ⟨none, owed, .quiet ?_ rfl ?_⟩
          · simpa only [step, hWorker] using hBeside
          · simp only [emitted, hWorker]
      | busy job rest =>
          cases rest with
          | done result =>
              exact step_done hBeside hWorker
          | locked change next =>
              exact step_locked hBeside hWorker

omit [DecidableEq ι] in
/- What the picked events of a run give, event by event. -/
theorem outputsOf_reduceOption_cons
    {ε' α : Type}
    (picked : ε' → Bool)
    (step : σ → ε' → σ)
    (out : σ → ε' → Option α)
    (s : σ)
    (e : ε')
    (es : List ε') :
    (Run.outputsOf picked step out s
        (e :: es)).reduceOption =
      (if picked e then (out s e).toList else []) ++
        (Run.outputsOf picked step out (step s e)
          es).reduceOption := by
  rw [Run.outputsOf]
  cases picked e with
  | false =>
      rfl
  | true =>
      rw [if_pos rfl, if_pos rfl]
      cases out s e with
      | none =>
          rfl
      | some a =>
          rfl

theorem outputs_reduceOption_cons
    (desk : Desk σ ι τ)
    (i : ι)
    (commit : Option ε)
    (commits : List (Option ε)) :
    desk.outputs assignee program i
        (commit :: commits).reduceOption =
      commit.elim [] (fun job =>
        if assignee job = i then
          [desk.emitted assignee program job]
        else
          []) ++
      (commit.elim desk
        (desk.step assignee program)).outputs assignee program
          i commits.reduceOption := by
  cases commit with
  | none =>
      rfl
  | some job =>
      rw [List.reduceOption_cons_of_some, Desk.outputs,
        Run.outputsOf]
      by_cases hHere : assignee job = i
      · simp only [hHere, decide_true, if_true,
          Option.elim_some]
        rfl
      · simp only [hHere, decide_false, Bool.false_eq_true,
          if_false, Option.elim_some]
        rfl

/- The jobs of a worker, commit by commit. -/
theorem filter_reduceOption_cons
    (i : ι)
    (commit : Option ε)
    (commits : List (Option ε)) :
    (commit :: commits).reduceOption.filter
        (fun job => assignee job = i) =
      commit.elim [] (fun job =>
        if assignee job = i then [job] else []) ++
      commits.reduceOption.filter
        (fun job => assignee job = i) := by
  cases commit with
  | none =>
      rfl
  | some job =>
      rw [List.reduceOption_cons_of_some, List.filter_cons,
        Option.elim_some]
      by_cases hHere : assignee job = i
      · rw [if_pos (decide_eq_true hHere), if_pos hHere]
        rfl
      · rw [if_neg (by simpa using hHere), if_neg hHere]
        rfl

/- A run is a run of the desk, but for what is still owed. -/
theorem run_linearizes
    (hSingle : ∀ job kept, (program job kept).Single)
    (hBeside : pool.Beside assignee program desk owed)
    (moves : List (Move ι ε)) :
    ∃ commits owed',
      pool.Commits assignee program moves commits ∧
      (Run.final (Pool.step assignee program) pool
        moves).Beside assignee program
          (Run.final (Desk.step assignee program) desk
            commits.reduceOption) owed' ∧
      (∀ i,
        commits.reduceOption.filter
            (fun job => assignee job = i) ++
              (owed' i).jobs =
          (owed i).jobs ++
            pool.given assignee program i moves) ∧
      ∀ i,
        pool.outputs assignee program i moves ++
            (owed' i).outs =
          (owed i).outs ++
            desk.outputs assignee program i
              commits.reduceOption := by
  induction moves generalizing pool desk owed with
  | nil =>
      refine ⟨[], owed, trivial, hBeside, fun i => ?_,
        fun i => ?_⟩
      · exact (List.append_nil _).symm
      · exact (List.append_nil _).symm
  | cons move moves ih =>
      rcases step_linearizes hSingle hBeside move with
        ⟨commit, owed₁, hStep⟩
      rcases ih hStep.beside with
        ⟨commits, owed₂, hCommits, hEnd, hJobs, hOutputs⟩
      refine ⟨commit :: commits, owed₂,
        ⟨hStep.busy, hCommits⟩, ?_, fun i => ?_, fun i => ?_⟩
      · cases commit with
        | none | some job =>
            exact hEnd
      · have hMove := hStep.jobs i
        have hMoves := hJobs i
        rw [given] at hMoves
        rw [filter_reduceOption_cons, given,
          outputsOf_reduceOption_cons, List.append_assoc,
          hMoves, ← List.append_assoc, hMove,
          List.append_assoc]
        simp only [decide_eq_true_eq]
      · have hMove := hStep.outputs i
        have hMoves := hOutputs i
        rw [outputs] at hMoves
        rw [outputs_reduceOption_cons, outputs,
          outputsOf_reduceOption_cons, List.append_assoc,
          hMoves, ← List.append_assoc, ← List.append_assoc,
          ← hMove]
        simp only [decide_eq_true_eq]

variable (assignee) in
/-
  Every run from idle workers is a run of the desk.  The jobs
  of a worker that are done there are those it was given, in
  order, but for the last if the worker is still busy; what
  the worker has given is what the desk has given it, but for
  the last output.
-/
theorem linearizes
    (hSingle : ∀ job kept, (program job kept).Single)
    (shared : σ)
    (kept : ι → τ)
    (moves : List (Move ι ε)) :
    ∃ commits,
      Commits assignee program
          ⟨shared, fun i => .idle (kept i)⟩ moves commits ∧
        (Run.final (Pool.step assignee program)
          ⟨shared, fun i => .idle (kept i)⟩ moves).shared =
            (Run.final (Desk.step assignee program)
              ⟨shared, kept⟩ commits.reduceOption).shared ∧
        ∀ i,
          (∃ undone,
            commits.reduceOption.filter
                (fun job => assignee job = i) ++ undone =
              given assignee program
                ⟨shared, fun i => .idle (kept i)⟩ i moves ∧
            undone <+:
              ((Run.final (Pool.step assignee program)
                ⟨shared, fun i => .idle (kept i)⟩
                moves).workers i).jobs) ∧
          outputs assignee program
              ⟨shared, fun i => .idle (kept i)⟩ i moves <+:
            Desk.outputs assignee program ⟨shared, kept⟩ i
              commits.reduceOption ∧
          ∀ rest,
            (Run.final (Pool.step assignee program)
              ⟨shared, fun i => .idle (kept i)⟩
              moves).workers i = .idle rest →
            (Run.final (Desk.step assignee program)
              ⟨shared, kept⟩
              commits.reduceOption).kept i = rest ∧
            outputs assignee program
                ⟨shared, fun i => .idle (kept i)⟩ i moves =
              Desk.outputs assignee program ⟨shared, kept⟩ i
                commits.reduceOption := by
  have hInit :
      Beside assignee program
        ⟨shared, fun i => .idle (kept i)⟩ ⟨shared, kept⟩
        (fun _ => (⟨[], []⟩ : Debt ε ο)) :=
    ⟨rfl, fun i => .idle (kept i)⟩
  rcases run_linearizes hSingle hInit moves with
    ⟨commits, owed, hCommits, hEnd, hJobs, hOutputs⟩
  refine ⟨commits, hCommits, hEnd.shared,
    fun i => ⟨?_, ?_, ?_⟩⟩
  · exact ⟨(owed i).jobs, hJobs i,
      (hEnd.workers i).undone_of_jobs⟩
  · exact ⟨(owed i).outs, hOutputs i⟩
  · intro rest hIdle
    have hOwes := hEnd.workers i
    have hSame := hOutputs i
    rw [hIdle] at hOwes
    generalize hOwed : owed i = debt at hOwes hSame
    revert hOwes
    generalize
      (Run.final (Desk.step assignee program) ⟨shared, kept⟩
        commits.reduceOption).kept i = last
    intro hOwes
    cases hOwes
    rw [List.append_nil, List.nil_append] at hSame
    exact ⟨rfl, hSame⟩

end Pool

end
