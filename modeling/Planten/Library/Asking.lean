import Mathlib.Data.List.Basic

/-
  Programs that ask.

  A program asks one question after the other, and what it
  asks next depends on the answers.  Who answers may look at
  all that was asked before.  The traces that a program can
  leave are then those of its own tree, whoever answers, and
  the traces of a sequence are made of those of its parts.

  Key definitions include:
    * `Asking`
    * `Asking.run`
    * `Asking.Leaves`
    * `Asking.asks`, `Asking.whileDone`

  Key theorems include:
    * `Asking.exists_oracle_iff`, `Asking.exists_trace_iff`
    * `Asking.leaves_bind_iff`
    * `Asking.leaves_asks_iff`
    * `Asking.leaves_whileDone_true_iff`,
      `Asking.leaves_whileDone_false_iff`
    * `Asking.exists_segment`
-/

------------------------------------------------------------
-- Programs and Traces
------------------------------------------------------------

/- A program: its value, or a question and what follows. -/
inductive Asking (Q A α : Type) where
| done (a : α)
| ask (q : Q) (next : A → Asking Q A α)

namespace Asking

variable {Q A α β ι : Type}

/- Questions with their answers, in order. -/
abbrev Trace (Q A : Type) : Type :=
  List (Q × A)

/- Who answers has all that was asked before. -/
abbrev Oracle (Q A : Type) : Type :=
  Trace Q A → Q → A

def bind
    (p : Asking Q A α)
    (f : α → Asking Q A β) : Asking Q A β :=
  match p with
  | done a => f a
  | ask q next => ask q (fun answer => (next answer).bind f)

instance : Monad (Asking Q A) where
  pure := done
  bind := bind

/- A question by itself. -/
def question (q : Q) : Asking Q A A :=
  ask q done

/- The value of a program, and the trace after it. -/
def run
    (oracle : Oracle Q A) :
    Trace Q A → Asking Q A α → α × Trace Q A
| before, done a => (a, before)
| before, ask q next =>
    run oracle (before ++ [(q, oracle before q)])
      (next (oracle before q))

/- A program can end with a value after a trace. -/
inductive Leaves :
    Asking Q A α → α → Trace Q A → Prop where
| done {a : α} : Leaves (done a) a []
| ask
    {q : Q} {next : A → Asking Q A α} {answer : A}
    {a : α} {t : Trace Q A}
    (hNext : Leaves (next answer) a t) :
    Leaves (ask q next) a ((q, answer) :: t)

/- A question for each element; the answers are dropped. -/
def asks (question : ι → Q) : List ι → Asking Q A Unit
| [] => done ()
| x :: xs => ask (question x) (fun _ => asks question xs)

/- A program for each element, until one says to stop. -/
def whileDone
    (body : ι → Asking Q A Bool) :
    List ι → Asking Q A Bool
| [] => pure true
| x :: xs => do
    if ← body x then
      whileDone body xs
    else
      pure false

end Asking

------------------------------------------------------------
-- Runs and Trees
------------------------------------------------------------

namespace Asking

variable {Q A α β ι : Type}

/- A run adds a trace that the program can leave. -/
theorem exists_leaves_run
    (oracle : Oracle Q A)
    (p : Asking Q A α)
    (before : Trace Q A) :
    ∃ t,
      (run oracle before p).2 = before ++ t ∧
        Leaves p (run oracle before p).1 t := by
  induction p generalizing before with
  | done a =>
      exact ⟨[], (List.append_nil before).symm, .done⟩
  | ask q next ih =>
      rcases ih (oracle before q)
          (before ++ [(q, oracle before q)]) with
        ⟨t, hTrace, hLeaves⟩
      refine ⟨(q, oracle before q) :: t, ?_, .ask hLeaves⟩
      rw [run, hTrace, List.append_assoc]
      rfl

/- Every answer of a run is that of the oracle, in its turn. -/
theorem answer_of_run
    {oracle : Oracle Q A}
    {p : Asking Q A α}
    {start before after : Trace Q A}
    {q : Q}
    {answer : A}
    (hSplit :
      (run oracle start p).2 =
        start ++ (before ++ (q, answer) :: after)) :
    answer = oracle (start ++ before) q := by
  induction p generalizing start before with
  | done a =>
      have hNil := List.self_eq_append_right.mp hSplit
      simp at hNil
  | ask q' next ih =>
      rcases exists_leaves_run oracle
          (next (oracle start q'))
          (start ++ [(q', oracle start q')]) with
        ⟨t, hTrace, _⟩
      rw [run] at hSplit
      have hHead := hSplit
      rw [hTrace, List.append_assoc,
        List.append_cancel_left_eq] at hHead
      cases before with
      | nil =>
          cases hHead
          rw [List.append_nil]
      | cons e before =>
          cases hHead
          have hInner :=
            @ih (oracle start q')
              (start ++ [(q', oracle start q')]) before
              (by rw [hSplit, List.append_assoc]; rfl)
          rw [hInner, List.append_assoc]
          rfl

/- The answers of a trace, each in its turn. -/
def script
    [Inhabited A]
    (t : Trace Q A) : Oracle Q A :=
  fun before _ =>
    (t[before.length]?.map Prod.snd).getD default

theorem script_append
    [Inhabited A]
    (before after : Trace Q A)
    (q : Q)
    (answer : A) :
    script (before ++ (q, answer) :: after) before q =
      answer := by
  simp [script]

/- A trace of the tree is the run that follows its script. -/
theorem run_script
    [Inhabited A]
    {p : Asking Q A α}
    {a : α}
    {t : Trace Q A}
    (hLeaves : Leaves p a t)
    (before : Trace Q A) :
    run (script (before ++ t)) before p =
      (a, before ++ t) := by
  induction hLeaves generalizing before with
  | done =>
      rw [run, List.append_nil]
  | @ask q next answer a t hNext ih =>
      have hRest := ih (before ++ [(q, answer)])
      rw [List.append_assoc, List.singleton_append] at hRest
      rw [run, script_append, hRest]

/-
  The traces that some oracle makes a program leave are those
  of its tree.
-/
theorem exists_oracle_iff
    [Inhabited A]
    {p : Asking Q A α}
    {a : α}
    {t : Trace Q A} :
    (∃ oracle, run oracle [] p = (a, t)) ↔
      Leaves p a t := by
  constructor
  · rintro ⟨oracle, hRun⟩
    rcases exists_leaves_run oracle p [] with
      ⟨t', hTrace, hLeaves⟩
    rw [hRun] at hTrace hLeaves
    cases hTrace
    exact hLeaves
  · intro hLeaves
    exact ⟨script t, run_script hLeaves []⟩

/- A program without a value is known by its traces. -/
theorem exists_trace_iff
    [Inhabited A]
    {p : Asking Q A Unit}
    {t : Trace Q A} :
    (∃ oracle, (run oracle [] p).2 = t) ↔
      Leaves p () t := by
  rw [← exists_oracle_iff]
  constructor
  · rintro ⟨oracle, rfl⟩
    exact ⟨oracle, rfl⟩
  · rintro ⟨oracle, hRun⟩
    exact ⟨oracle, congrArg Prod.snd hRun⟩

end Asking

------------------------------------------------------------
-- Traces of Sequences
------------------------------------------------------------

namespace Asking

variable {Q A α β ι : Type}

@[simp] theorem leaves_pure_iff
    {a b : α}
    {t : Trace Q A} :
    Leaves (pure a : Asking Q A α) b t ↔ a = b ∧ t = [] := by
  constructor
  · intro hLeaves
    cases hLeaves
    exact ⟨rfl, rfl⟩
  · rintro ⟨rfl, rfl⟩
    exact .done

@[simp] theorem leaves_question_iff
    {q : Q}
    {answer : A}
    {t : Trace Q A} :
    Leaves (question q) answer t ↔ t = [(q, answer)] := by
  constructor
  · intro hLeaves
    cases hLeaves with
    | ask hNext =>
        cases hNext
        rfl
  · rintro rfl
    exact .ask .done

theorem Leaves.bind
    {p : Asking Q A α}
    {f : α → Asking Q A β}
    {a : α}
    {b : β}
    {first second : Trace Q A}
    (hFirst : Leaves p a first)
    (hSecond : Leaves (f a) b second) :
    Leaves (p >>= f) b (first ++ second) := by
  induction hFirst with
  | done =>
      exact hSecond
  | ask hNext ih =>
      exact .ask (ih hSecond)

/- What asks nothing more adds nothing to a trace. -/
theorem Leaves.bind_done
    {p : Asking Q A α}
    {f : α → Asking Q A β}
    {a : α}
    {b : β}
    {t : Trace Q A}
    (hLeaves : Leaves p a t)
    (hDone : f a = pure b) :
    Leaves (p >>= f) b t := by
  rw [← List.append_nil t]
  refine hLeaves.bind ?_
  rw [hDone]
  exact .done

/- The trace of a sequence is that of its parts. -/
theorem leaves_bind_iff
    {p : Asking Q A α}
    {f : α → Asking Q A β}
    {b : β}
    {t : Trace Q A} :
    Leaves (p >>= f) b t ↔
      ∃ a first second,
        t = first ++ second ∧
          Leaves p a first ∧ Leaves (f a) b second := by
  constructor
  · intro hLeaves
    induction p generalizing t with
    | done a =>
        exact ⟨a, [], t, rfl, .done, hLeaves⟩
    | ask q next ih =>
        cases hLeaves with
        | ask hNext =>
            rcases ih _ hNext with
              ⟨a, first, second, rfl, hFirst, hSecond⟩
            exact ⟨a, _ :: first, second, rfl, .ask hFirst,
              hSecond⟩
  · rintro ⟨a, first, second, rfl, hFirst, hSecond⟩
    exact hFirst.bind hSecond

/- What follows a question depends on the answer only. -/
theorem leaves_question_bind_iff
    {q : Q}
    {f : A → Asking Q A β}
    {b : β}
    {t : Trace Q A} :
    Leaves (question q >>= f) b t ↔
      ∃ answer rest,
        t = (q, answer) :: rest ∧
          Leaves (f answer) b rest := by
  rw [leaves_bind_iff]
  constructor
  · rintro ⟨answer, first, second, rfl, hFirst, hSecond⟩
    rw [leaves_question_iff] at hFirst
    exact ⟨answer, second, by rw [hFirst]; rfl, hSecond⟩
  · rintro ⟨answer, rest, rfl, hRest⟩
    exact ⟨answer, [(q, answer)], rest, rfl,
      leaves_question_iff.mpr rfl, hRest⟩

/- The questions are asked, whatever is answered. -/
@[simp] theorem leaves_asks_iff
    {question : ι → Q}
    {xs : List ι}
    {t : Trace Q A} :
    Leaves (asks question xs) () t ↔
      t.map Prod.fst = xs.map question := by
  induction xs generalizing t with
  | nil =>
      rw [List.map_nil, List.map_eq_nil_iff]
      constructor
      · intro hLeaves
        cases hLeaves
        rfl
      · rintro rfl
        exact .done
  | cons x xs ih =>
      constructor
      · intro hLeaves
        cases hLeaves with
        | ask hNext =>
            rw [List.map_cons, ih.mp hNext, List.map_cons]
      · intro hMap
        cases t with
        | nil =>
            cases hMap
        | cons e t =>
            rcases e with ⟨q, answer⟩
            rw [List.map_cons, List.map_cons,
              List.cons_eq_cons] at hMap
            rcases hMap with ⟨rfl, hMap⟩
            exact .ask (ih.mpr hMap)

/- One segment for each element, and none says to stop. -/
theorem leaves_whileDone_true_iff
    {body : ι → Asking Q A Bool}
    {xs : List ι}
    {t : Trace Q A} :
    Leaves (whileDone body xs) true t ↔
      ∃ segments,
        t = List.flatten segments ∧
          List.Forall₂ (fun x => Leaves (body x) true) xs
            segments := by
  induction xs generalizing t with
  | nil =>
      rw [whileDone, leaves_pure_iff]
      constructor
      · rintro ⟨_, rfl⟩
        exact ⟨[], rfl, .nil⟩
      · rintro ⟨segments, rfl, hAll⟩
        cases hAll
        exact ⟨rfl, rfl⟩
  | cons x xs ih =>
      rw [whileDone, leaves_bind_iff]
      constructor
      · rintro ⟨goes, head, tail, rfl, hHead, hTail⟩
        cases goes with
        | true =>
            rcases ih.mp hTail with ⟨segments, rfl, hAll⟩
            exact ⟨head :: segments, rfl, .cons hHead hAll⟩
        | false =>
            rcases leaves_pure_iff.mp hTail with ⟨hFalse, _⟩
            cases hFalse
      · rintro ⟨segments, rfl, hAll⟩
        cases hAll with
        | cons hHead hTail =>
            exact ⟨true, _, _, rfl, hHead,
              ih.mpr ⟨_, rfl, hTail⟩⟩

/- Where an element says to stop, its segment is the last. -/
theorem leaves_whileDone_false_iff
    {body : ι → Asking Q A Bool}
    {xs : List ι}
    {t : Trace Q A} :
    Leaves (whileDone body xs) false t ↔
      ∃ segments first x rest last,
        xs = first ++ x :: rest ∧
          t = List.flatten segments ++ last ∧
          List.Forall₂ (fun x => Leaves (body x) true) first
            segments ∧
          Leaves (body x) false last := by
  induction xs generalizing t with
  | nil =>
      rw [whileDone, leaves_pure_iff]
      constructor
      · rintro ⟨hFalse, _⟩
        cases hFalse
      · rintro ⟨segments, first, x, rest, last, hNil, _⟩
        simp at hNil
  | cons x xs ih =>
      rw [whileDone, leaves_bind_iff]
      constructor
      · rintro ⟨goes, head, tail, rfl, hHead, hTail⟩
        cases goes with
        | true =>
            rcases ih.mp hTail with
              ⟨segments, first, y, rest, last, rfl, rfl,
                hAll, hLast⟩
            refine ⟨head :: segments, x :: first, y, rest,
              last, rfl, ?_, .cons hHead hAll, hLast⟩
            rw [List.flatten_cons, List.append_assoc]
        | false =>
            rcases leaves_pure_iff.mp hTail with ⟨_, rfl⟩
            exact ⟨[], [], x, xs, head, rfl,
              List.append_nil head, .nil, hHead⟩
      · rintro ⟨segments, first, y, rest, last, hSplit, rfl,
          hAll, hLast⟩
        cases hAll with
        | nil =>
            cases hSplit
            exact ⟨false, last, [],
              (List.append_nil last).symm, hLast, .done⟩
        | cons hHead hTail =>
            cases hSplit
            refine ⟨true, _, _, ?_, hHead,
              ih.mpr ⟨_, _, _, _, _, rfl, rfl, hTail,
                hLast⟩⟩
            rw [List.flatten_cons, List.append_assoc]

end Asking

------------------------------------------------------------
-- Places in a Trace
------------------------------------------------------------

namespace Asking

variable {ε ι : Type}

/- What a segmented trace holds, one of its segments holds. -/
theorem exists_segment
    {P : ι → List ε → Prop}
    {xs : List ι}
    {segments : List (List ε)}
    (hAll : List.Forall₂ P xs segments)
    {before after : List ε}
    {e : ε}
    (hSplit : segments.flatten = before ++ e :: after) :
    ∃ x ∈ xs, ∃ earlier inner rest later,
      P x (inner ++ e :: rest) ∧
        before = earlier ++ inner ∧ after = rest ++ later := by
  induction hAll generalizing before with
  | nil =>
      simp at hSplit
  | @cons x segment xs segments hHead hTail ih =>
      rw [List.flatten_cons, List.append_eq_append_iff]
        at hSplit
      rcases hSplit with
        ⟨inner, rfl, hRest⟩ | ⟨tail, rfl, hRest⟩
      · rcases ih hRest with
          ⟨y, hMem, earlier, inner', rest, later, hSegment,
            rfl, rfl⟩
        exact ⟨y, List.mem_cons_of_mem _ hMem,
          segment ++ earlier, inner', rest, later, hSegment,
          (List.append_assoc ..).symm, rfl⟩
      · cases tail with
        | nil =>
            rcases @ih [] hRest.symm with
              ⟨y, hMem, earlier, inner, rest, later,
                hSegment, hNil, rfl⟩
            refine ⟨y, List.mem_cons_of_mem _ hMem,
              before ++ earlier, inner, rest, later, hSegment,
              ?_, rfl⟩
            rw [List.append_assoc, ← hNil, List.append_nil]
        | cons e' tail =>
            cases hRest
            exact ⟨x, List.mem_cons_self .., [], before,
              tail, segments.flatten, hHead, rfl, rfl⟩

/- A place of a trace is the last one, or before it. -/
theorem last_or_before
    {before after pre : List ε}
    {e last : ε}
    (hSplit : before ++ e :: after = pre ++ [last]) :
    (before = pre ∧ e = last ∧ after = []) ∨
      ∃ after',
        after = after' ++ [last] ∧
          pre = before ++ e :: after' := by
  rcases List.eq_nil_or_concat after with
    rfl | ⟨after', last', rfl⟩
  · rcases List.append_inj' hSplit rfl with ⟨rfl, hLast⟩
    exact Or.inl ⟨rfl, List.singleton_inj.mp hLast, rfl⟩
  · rw [List.concat_eq_append, ← List.cons_append,
      ← List.append_assoc] at hSplit
    rcases List.append_inj' hSplit rfl with ⟨rfl, hLast⟩
    cases hLast
    exact Or.inr ⟨after', List.concat_eq_append .., rfl⟩

end Asking
