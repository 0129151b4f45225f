import Stepwise.Proofs.Lifecycle

/-!
# A process that is left alone

Where nothing else works on its run, what a process does is settled by what comes of its waits. An
oracle tells what comes of them, one after the other, and the moves of the process tell the same
afterwards.

* `Move.Obeys`: the waits among some moves came out as an oracle tells.
* `Process.Course`: what a process does on its run, and where that leads.
* `Process.Course.run_eq`: a process that is carried out on its own takes the same course.
* `Engine.run_execute_of_course`: so does an execution, even on a run of another name.
-/

namespace Stepwise

/-! ## The name of a run -/

/-- The run under another name. -/
def Run.named (r : Run) (name : String) : Run := { r with name }

/-- No access depends on the name of the run. -/
theorem Run.perform_named (c : Run.Access) (r : Run) (name : String) :
    c.perform (r.named name) = ((c.perform r).1, (c.perform r).2.named name) := by
  cases c with
  | enter index =>
    show ((), (r.named name).enter index) = ((), (r.enter index).named name)
    unfold enter
    rw [apply_ite (named · name)]
    rfl
  | log entry =>
    show ((), (r.named name).log entry) = ((), (r.log entry).named name)
    unfold log
    rw [apply_ite (named · name)]
    rfl
  | launch | start | announce | blame | poll | read | assign | print | record => rfl

/-! ## Oracles -/

namespace Move

variable {σ : Type} {answer : (w : Wait) → σ → w.Answer × σ} {o : σ} {moves : List Move}

/-- The waits among the moves came out as the oracle tells. -/
def Obeys (answer : (w : Wait) → σ → w.Answer × σ) : σ → List Move → Prop
  | _, [] => True
  | o, .access _ _ :: moves => Obeys answer o moves
  | o, .wait w x :: moves => x = (answer w o).1 ∧ Obeys answer (answer w o).2 moves

/-- The oracle when it has been asked about the waits among the moves. -/
def consult (answer : (w : Wait) → σ → w.Answer × σ) : σ → List Move → σ
  | o, [] => o
  | o, .access _ _ :: moves => consult answer o moves
  | o, .wait w _ :: moves => consult answer (answer w o).2 moves

theorem obeys_append {more : List Move} :
    Obeys answer o (moves ++ more) ↔
      Obeys answer o moves ∧ Obeys answer (consult answer o moves) more := by
  induction moves generalizing o with
  | nil => exact (iff_of_eq (true_and _)).symm
  | cons move moves ih =>
    cases move with
    | access => exact ih
    | wait => exact (and_congr_right' ih).trans and_assoc.symm

/-- What came of a wait. -/
def awaited? : Move → Option ((w : Wait) × w.Answer)
  | .access _ _ => none
  | .wait w x => some ⟨w, x⟩

open Classical in
/-- The oracle that tells what came of some waits, as long as it is asked about these. -/
noncomputable def replay (w : Wait) :
    List ((w : Wait) × w.Answer) → w.Answer × List ((w : Wait) × w.Answer)
  | [] => ((w.quiet ()).1, [])
  | ⟨w', x⟩ :: rest => (if h : w' = w then h ▸ x else (w.quiet ()).1, rest)

/-- Whatever was done, some oracle tells it. -/
theorem obeys_replay (moves : List Move) : Obeys replay (moves.filterMap awaited?) moves := by
  induction moves with
  | nil => trivial
  | cons move moves ih =>
    cases move with
    | access => exact ih
    | wait w x =>
      refine ⟨?_, ih⟩
      show x = (replay w (⟨w, x⟩ :: _)).1
      rw [replay, dif_pos rfl]

end Move

/-! ## The course of a process -/

namespace Process

open Move (Obeys consult)

variable {α σ : Type} {answer : (w : Wait) → σ → w.Answer × σ} {o : σ} {p q : Process α}
  {r r' : Run} {moves : List Move}

/-- On its run, which nothing else works on, the process makes these moves, and then this is left of
it and this has become of the run. -/
inductive Course : Process α → Run → List Move → Process α → Run → Prop
  | refl {p : Process α} {r : Run} : Course p r [] p r
  | access {c : Run.Access} {next : c.Answer → Process α} {moves : List Move} {q : Process α}
      {r r' : Run} : Course (next (c.perform r).1) (c.perform r).2 moves q r' →
      Course (.access c next) r (.access c (c.perform r).1 :: moves) q r'
  | wait {w : Wait} {next : w.Answer → Process α} {x : w.Answer} {moves : List Move}
      {q : Process α} {r r' : Run} : Course (next x) r moves q r' →
      Course (.wait w next) r (.wait w x :: moves) q r'

namespace Course

theorem trans {more : List Move} {p' : Process α} {r'' : Run} (h : p.Course r moves q r')
    (h' : q.Course r' more p' r'') : p.Course r (moves ++ more) p' r'' := by
  induction h with
  | refl => exact h'
  | access _ ih => exact .access (ih h')
  | wait _ ih => exact .wait (ih h')

/-- No process cancels its run. -/
theorem cancelled_eq (h : p.Course r moves q r') : r'.cancelled = r.cancelled := by
  induction h with
  | refl => rfl
  | access _ ih => exact ih.trans (Run.cancelled_perform _ _)
  | wait _ ih => exact ih

/-- Carried out on its own, the process makes the same moves, and then what is left of it does. -/
theorem moves_eq (h : p.Course r moves q r') (ho : Obeys answer o moves) :
    p.moves (.answering answer) r o =
      moves ++ q.moves (.answering answer) r' (consult answer o moves) := by
  induction h generalizing o with
  | refl => rfl
  | access _ ih => exact congrArg (List.cons _) (ih ho)
  | wait _ ih =>
    obtain ⟨rfl, ho⟩ := ho
    exact congrArg (List.cons _) (ih ho)

/-- Carried out on its own, the process ends as what is left of it does. -/
theorem run_eq (h : p.Course r moves q r') (ho : Obeys answer o moves) :
    p.run (.answering answer) r o =
      q.run (.answering answer) r' (consult answer o moves) := by
  induction h generalizing o with
  | refl => rfl
  | access _ ih => exact ih ho
  | wait _ ih =>
    obtain ⟨rfl, ho⟩ := ho
    exact ih ho

end Course

/-- A process that is carried out on its own takes its course to the end. -/
theorem course_moves (answer : (w : Wait) → σ → w.Answer × σ) (p : Process α) (r : Run) (o : σ) :
    p.Course r (p.moves (.answering answer) r o) (.done (p.run (.answering answer) r o).1)
      (p.run (.answering answer) r o).2.1 := by
  induction p generalizing r o with
  | done a => exact .refl
  | access c next ih => exact .access (ih _ _ _)
  | wait w next ih => exact .wait (ih _ _ _)

/-- Only a process that has ended makes no move. -/
theorem moves_eq_nil {world : World σ} : p.moves world r o = [] ↔ ∃ a, p = .done a := by
  cases p with
  | done a => exact iff_of_true rfl ⟨a, rfl⟩
  | access | wait => exact ⟨nofun, nofun⟩

/-- Nothing a process does depends on the name of the run. -/
theorem moves_named (p : Process α) (name : String) :
    p.moves (.answering answer) (r.named name) o = p.moves (.answering answer) r o := by
  induction p generalizing r o with
  | done a => rfl
  | access c next ih =>
    show Move.access c (c.perform (r.named name)).1 ::
      (next (c.perform (r.named name)).1).moves _ (c.perform (r.named name)).2 o = _
    rw [Run.perform_named]
    exact congrArg (List.cons _) (ih (c.perform r).1)
  | wait w next ih => exact congrArg (List.cons _) (ih _)

theorem run_named (p : Process α) (name : String) :
    p.run (.answering answer) (r.named name) o =
      ((p.run (.answering answer) r o).1, (p.run (.answering answer) r o).2.1.named name,
        (p.run (.answering answer) r o).2.2) := by
  induction p generalizing r o with
  | done a => rfl
  | access c next ih =>
    show (next (c.perform (r.named name)).1).run _ (c.perform (r.named name)).2 o = _
    rw [Run.perform_named]
    exact ih (c.perform r).1
  | wait w next ih => exact ih _

end Process

/-! ## Executions -/

namespace Engine

open Move (Obeys consult)

variable {σ : Type} {answer : (w : Wait) → σ → w.Answer × σ} {o : σ} {e : Engine}
  {script : Script} {id : String} {r r' : Run} {moves : List Move}
  {q : Process (Except Outcome String)}

theorem execute_ne_done (result : Except Outcome String) : e.execute id script ≠ .done result := by
  rw [execute_eq]
  exact nofun

/-- An execution that finds its run unclaimed does not depend on the name it was given. -/
theorem moves_execute_congr (hr : r.launched = false) (id name : String) :
    (e.execute id script).moves (.answering answer) r o =
      (e.execute name script).moves (.answering answer) r o := by
  rw [execute_eq, execute_eq]
  show Move.access .launch r.launched :: Process.moves _ (if r.launched then _ else _) _ _ =
    Move.access .launch r.launched :: Process.moves _ (if r.launched then _ else _) _ _
  rw [hr]
  rfl

theorem run_execute_congr (hr : r.launched = false) (id name : String) :
    (e.execute id script).run (.answering answer) r o =
      (e.execute name script).run (.answering answer) r o := by
  rw [execute_eq, execute_eq]
  show Process.run _ (if r.launched then _ else _) _ _ =
    Process.run _ (if r.launched then _ else _) _ _
  rw [hr]
  rfl

/-- On its own, and on a run of any name, an execution makes the moves it has made on its run, and
then what is left of it does. -/
theorem moves_execute_of_course (h : (e.execute id script).Course r moves q r')
    (hr : r.launched = false) (ho : Obeys answer o moves) (name : String) :
    (e.execute name script).moves (.answering answer) (r.named name) o =
      moves ++ q.moves (.answering answer) r' (consult answer o moves) := by
  rw [Process.moves_named, ← moves_execute_congr hr id name, h.moves_eq ho]

/-- On its own, and on a run of any name, it ends as what is left of it does. -/
theorem run_execute_of_course (h : (e.execute id script).Course r moves q r')
    (hr : r.launched = false) (ho : Obeys answer o moves) (name : String) :
    (e.execute name script).run (.answering answer) (r.named name) o =
      let (result, r', o') := q.run (.answering answer) r' (consult answer o moves)
      (result, r'.named name, o') := by
  rw [Process.run_named, ← run_execute_congr hr id name, h.run_eq ho]

end Engine

end Stepwise
