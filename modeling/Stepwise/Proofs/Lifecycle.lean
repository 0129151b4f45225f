import Stepwise.Proofs.Stage

/-!
# The life of one execution

Executing a script goes through phases. The process finds out whether the run was claimed before; if
not, it notes the beginning, shows the first step, and then shows one step after the other until it
notes how it ended. Nothing else it does is seen in the status of the run.

* `Phase`, `Watch.lifecycle`: the phases, and the accesses that lead from one to the next.
* `Engine.execute_keeps_lifecycle`: an execution goes through its phases, and its result tells in
  which it ended.
* `Engine.Succeeded`, `Engine.succeeded_of_path`: when a step is shown, those before it succeeded.
-/

namespace Stepwise

/-- How far an execution has come. -/
inductive Phase where
  | idle
  /-- The run was claimed before. -/
  | lost
  | claimed
  | begun
  | executing (index : Nat)
  /-- The outcome that ends the run has been noted. -/
  | failing (index : Nat) (o : Outcome)
  | completed
  | failed (o : Outcome)

namespace Phase

/-- The access may be made in this phase. -/
def Allows : Phase → Run.Access → Prop
  | idle, c => c = .launch
  | claimed, c => c = .start
  | begun, c => c = .announce (.executing 0)
  | executing i, .enter j => i ≤ j
  | executing _, .announce s => s = .completed
  | executing _, .blame _ => True
  | executing _, c => ¬c.OfLifecycle
  | failing _ _, c => c = .announce .error
  | lost, _ | completed, _ | failed _, _ => False

/-- The phase after an access. -/
def after : Phase → (c : Run.Access) → c.Answer → Phase
  | idle, .launch, launched => if launched then lost else claimed
  | claimed, .start, _ => begun
  | begun, .announce _, _ => executing 0
  | executing _, .enter j, _ => executing j
  | executing _, .announce _, _ => completed
  | executing i, .blame o, _ => failing i o
  | failing _ o, .announce _, _ => failed o
  | p, _, _ => p

/-- The run shows this step. -/
def Showing (k : Nat) : Phase → Prop
  | executing i | failing i _ => i = k
  | _ => False

variable {c : Run.Access} {i : Nat}

theorem allows_own (hc : ¬c.OfLifecycle) : (executing i).Allows c := by
  cases c with
  | launch | start | announce | enter | blame => exact absurd trivial hc
  | poll | read | assign | print | record | log => exact hc

theorem after_own (hc : ¬c.OfLifecycle) (x : c.Answer) : (executing i).after c x = executing i := by
  cases c with
  | launch | start | announce | enter | blame => exact absurd trivial hc
  | poll | read | assign | print | record | log => rfl

/-- An execution of the run with this name that ends in this phase gives this result. -/
def Ends (name : String) (result : Except Outcome String) : Phase → Prop
  | lost => result = .error (Engine.alreadyStarted name)
  | completed => ∃ message, result = .ok message
  | failed o => result = .error o
  | _ => False

end Phase

/-- The phases of an execution. Only while it shows a step does it wait. -/
def Watch.lifecycle : Watch Phase where
  allows := Phase.Allows
  allowsWait p _ := ∃ i, p = .executing i
  answered := Phase.after

open Watch (lifecycle)

/-- A process without accesses of the lifecycle stays in its phase. -/
theorem Process.Own.keeps_lifecycle {α : Type} {p : Process α} (h : p.Own) (i : Nat) :
    p.Keeps lifecycle (fun _ phase => phase = .executing i) (.executing i) := by
  induction p with
  | done a => rfl
  | access c next ih =>
    refine ⟨Phase.allows_own h.1, fun x => ?_⟩
    show (next x).Keeps lifecycle _ (Phase.after _ _ _)
    rw [Phase.after_own h.1]
    exact ih x (h.2 x)
  | wait w next ih => exact ⟨⟨i, rfl⟩, fun x => ih x (h x)⟩

/-- The moves of such a process leave the phase alone. -/
theorem Process.Own.after_path {α : Type} {p q : Process α} {moves : List Move} (h : p.Own)
    (hp : p.Path moves q) (i : Nat) : moves.foldl lifecycle.after (.executing i) = .executing i := by
  induction hp with
  | refl => rfl
  | @access c next x moves q _ ih =>
    show moves.foldl lifecycle.after (Phase.after _ _ _) = _
    rw [Phase.after_own h.1]
    exact ih (h.2 x)
  | wait _ ih => exact ih (h _)

namespace Snippet

/-- The lines of a snippet are carried out in the order of their indices. -/
theorem statements_pairwise (source : String) :
    (statements source).Pairwise fun a b => a.1 < b.1 := by
  refine List.Pairwise.filter _ (List.pairwise_map.mpr ?_)
  rw [List.pairwise_iff_getElem]
  intro i j hi hj hij
  simpa using hij

/-- No line makes an access of the lifecycle. -/
theorem carryOutLine_own (line : String) : (carryOutLine line).run.Own :=
  Process.Meets.mono (Process.meets_iff_keeps.mpr
    (Engine.carryOutLine_keeps (Monitor.ownOnly_maintains.lenient _ trivial) line))
    fun _ _ _ => trivial

end Snippet

namespace Engine

/-- Some step is shown. -/
def Shown : Phase → Prop := fun p => ∃ i, p = .executing i

theorem statementsFrom_keeps_lifecycle (config : Config) {lines : List (Nat × String)} (done : Nat)
    {i : Nat} (hlines : lines.Pairwise fun a b => a.1 < b.1) (hi : ∀ entry ∈ lines, i ≤ entry.1) :
    (Snippet.statementsFrom config done lines).Keeps lifecycle (fun _ => Shown) (.executing i) := by
  induction lines generalizing done i with
  | nil => exact ⟨i, rfl⟩
  | cons entry rest ih =>
    obtain ⟨index, line⟩ := entry
    obtain ⟨hindex, hrest⟩ := List.pairwise_cons.mp hlines
    rw [Snippet.statementsFrom_cons]
    refine ⟨⟨i, rfl⟩, fun _ => ⟨id, fun cancelled => ?_⟩⟩
    cases cancelled with
    | true => exact ⟨i, rfl⟩
    | false =>
      refine ⟨hi _ List.mem_cons_self, fun _ => ?_⟩
      refine .bind (((Snippet.carryOutLine_own line).keeps_lifecycle index).mono ?_)
      rintro result _ rfl
      refine ⟨id, fun _ => ?_⟩
      split
      · exact ⟨index, rfl⟩
      · exact ih (done + 1) hrest fun entry he => Nat.le_of_lt (hindex entry he)

theorem stepsFrom_keeps_lifecycle (e : Engine) (index : Nat) {ts : List Step} {i : Nat}
    (hi : i ≤ index) : (e.stepsFrom index ts).Keeps lifecycle (fun _ => Shown) (.executing i) := by
  induction ts generalizing index i with
  | nil => exact ⟨i, rfl⟩
  | cons t ts ih =>
    refine .bind (.ofAccess hi fun _ => ?_)
    refine Process.Keeps.bind (((e.dispatch_own t).keeps_lifecycle index).mono ?_)
    rintro o _ rfl
    split
    · exact ⟨index, rfl⟩
    · exact ih (index + 1) (Nat.le_succ index)

theorem body_keeps_lifecycle (e : Engine) (script : Script) :
    (e.body script).Keeps lifecycle (fun _ => Shown) (.executing 0) := by
  cases script with
  | steps ts => exact stepsFrom_keeps_lifecycle e 0 (Nat.le_refl 0)
  | snippet source =>
    exact statementsFrom_keeps_lifecycle e.config 0 (Snippet.statements_pairwise source)
      fun _ _ => Nat.zero_le _

/-- An execution goes through its phases, and gives what it must in the last one. -/
theorem execute_keeps_lifecycle (e : Engine) (name : String) (script : Script) :
    (e.execute name script).Keeps lifecycle (Phase.Ends name) .idle := by
  refine .bind (.ofAccess rfl fun launched => ?_)
  cases launched with
  | true => rfl
  | false =>
    refine .bind (.ofAccess rfl fun _ => .bind (.ofAccess rfl fun _ => ?_))
    refine Process.Keeps.bind ((body_keeps_lifecycle e script).mono ?_)
    rintro result _ ⟨i, rfl⟩
    cases result with
    | ok message => exact ⟨rfl, fun _ => ⟨message, rfl⟩⟩
    | error o => exact ⟨trivial, fun _ => ⟨rfl, fun _ => rfl⟩⟩

/-! ## The steps before the one that is shown -/

/-- The moves contain, in their order, whole dispatches of these steps that ended without error. -/
inductive Succeeded (e : Engine) : List Step → List Move → Prop
  | nil {moves : List Move} : Succeeded e [] moves
  | snoc {ts : List Step} {t : Step} {before moves after : List Move} {o : Outcome} :
      Succeeded e ts before → (e.dispatch t).Path moves (.done o) → o.isError = false →
      Succeeded e (ts ++ [t]) (before ++ moves ++ after)

variable {e : Engine} {ts done : List Step} {moves before : List Move}

theorem Succeeded.append (h : Succeeded e ts moves) (more : List Move) :
    Succeeded e ts (moves ++ more) := by
  cases h with
  | nil => exact .nil
  | snoc h hp ho =>
    rw [List.append_assoc]
    exact .snoc h hp ho

theorem Succeeded.take (h : Succeeded e ts moves) (k : Nat) : Succeeded e (ts.take k) moves := by
  induction h with
  | nil =>
    rw [List.take_nil]
    exact .nil
  | @snoc ts t before moves after o h hp ho ih =>
    rcases Nat.lt_or_ge ts.length k with hk | hk
    · rw [List.take_of_length_le (by rw [List.length_append]; exact hk)]
      exact .snoc h hp ho
    · rw [List.take_append_of_le_length hk, List.append_assoc]
      exact ih.append _

/-- As long as no other step is shown, those before the one that is shown are among those that
succeeded. -/
theorem Succeeded.shown (h : Succeeded e done before) {j k : Nat} (hj : j ≤ done.length)
    (hjk : (Phase.executing j).Showing k) (more : List Move) :
    Succeeded e ((done ++ ts).take k) (before ++ more) := by
  obtain rfl := hjk
  rw [List.take_append_of_le_length hj]
  exact (h.take _).append _

/-- The steps of a script, of which some were carried out before. -/
theorem succeeded_of_stepsFrom {q : Process (Except Outcome String)} {i k : Nat}
    (h : (e.stepsFrom done.length ts).Path moves q) (hdone : Succeeded e done before)
    (hi : i ≤ done.length) (hk : (moves.foldl lifecycle.after (.executing i)).Showing k) :
    Succeeded e ((done ++ ts).take k) (before ++ moves) := by
  -- By induction on the steps that are left. The index shown is at most the number of steps done.
  induction ts generalizing done before moves i with
  | nil =>
    obtain ⟨rfl, -⟩ := h.of_done
    exact hdone.shown hi hk _
  | cons t ts ih =>
    replace h : (Process.access (.enter done.length) fun _ => (e.dispatch t).bind fun o =>
        if o.isError then .done (.error o) else e.stepsFrom (done.length + 1) ts).Path moves q := h
    cases h with
    | refl => exact hdone.shown hi hk _
    | @access _ _ x moves _ h =>
      replace hk : (moves.foldl lifecycle.after (.executing done.length)).Showing k := hk
      -- The path ends within the step, or goes on behind it.
      rcases h.of_bind with ⟨p, hp, -⟩ | ⟨first, o, rest, rfl, hp, h⟩
      · rw [(e.dispatch_own t).after_path hp] at hk
        exact hdone.shown (Nat.le_refl _) hk _
      · rw [List.foldl_append, (e.dispatch_own t).after_path hp] at hk
        by_cases ho : o.isError
        · -- The step failed, and no other step is shown.
          rw [if_pos ho] at h
          obtain ⟨rfl, -⟩ := h.of_done
          exact hdone.shown (Nat.le_refl _) hk _
        · -- It succeeded, and is one of the steps that are done.
          rw [if_neg ho] at h
          have hnext : Succeeded e (done ++ [t]) (before ++ .access (.enter done.length) x :: first) := by
            have hentered := hdone.append [.access (.enter done.length) x]
            have hsnoc : Succeeded e (done ++ [t])
                (before ++ [.access (.enter done.length) x] ++ first ++ []) :=
              .snoc hentered hp (Bool.eq_false_iff.mpr ho)
            simpa only [List.append_assoc, List.cons_append, List.nil_append, List.append_nil]
              using hsnoc
          have hlength : (done ++ [t]).length = done.length + 1 := List.length_append
          have hrest := ih (hlength ▸ h) hnext (hlength ▸ Nat.le_succ _) hk
          simpa only [List.append_assoc, List.cons_append, List.nil_append] using hrest

/-- When a script has ended, no other step is shown. -/
theorem showing_of_finish {result : Except Outcome String} {q : Process (Except Outcome String)}
    {i k : Nat} (h : ((finish result).bind fun _ => .done result).Path moves q)
    (hk : (moves.foldl lifecycle.after (.executing i)).Showing k) : i = k := by
  cases result with
  | ok message =>
    replace h : (Process.access (.announce .completed) fun _ => .done (.ok message)).Path moves q := h
    cases h with
    | refl => exact hk
    | access h =>
      obtain ⟨rfl, -⟩ := h.of_done
      exact hk.elim
  | error o =>
    replace h : (Process.access (.blame o) fun _ => .access (.announce .error) fun _ =>
      .done (.error o)).Path moves q := h
    cases h with
    | refl => exact hk
    | access h =>
      cases h with
      | refl => exact hk
      | access h =>
        obtain ⟨rfl, -⟩ := h.of_done
        exact hk.elim

/-- An execution claims the run, shows the first step, and carries out its body. -/
theorem execute_eq (e : Engine) (name : String) (script : Script) :
    e.execute name script = .access .launch fun launched =>
      if launched then .done (.error (alreadyStarted name))
      else .access .start fun _ => .access (.announce (.executing 0)) fun _ =>
        (e.body script).bind fun result => (finish result).bind fun _ => .done result := by
  refine congrArg (Process.access .launch) (funext fun launched => ?_)
  cases launched with
  | true => rfl
  | false => rfl

/-- An execution has not asked yet whether the run was claimed before, or was sent away, or goes
on. -/
theorem launches_of_path {name : String} {script : Script} {q : Process (Except Outcome String)}
    (h : (e.execute name script).Path moves q) :
    (moves = [] ∧ q = e.execute name script) ∨
      (moves = [.access .launch true] ∧ q = .done (.error (alreadyStarted name))) ∨
      ∃ rest, moves = .access .launch false :: rest := by
  rw [execute_eq] at h ⊢
  cases h with
  | refl => exact .inl ⟨rfl, rfl⟩
  | @access _ _ launched rest _ h =>
    cases launched with
    | true =>
      obtain ⟨rfl, rfl⟩ := h.of_done
      exact .inr (.inl ⟨rfl, rfl⟩)
    | false => exact .inr (.inr ⟨rest, rfl⟩)

/-- When an execution shows a step, the steps before it have succeeded. -/
theorem succeeded_of_path {name : String} {q : Process (Except Outcome String)} {k : Nat}
    (h : (e.execute name (.steps ts)).Path moves q)
    (hk : (moves.foldl lifecycle.after .idle).Showing k) : Succeeded e (ts.take k) moves := by
  rw [execute_eq] at h
  cases h with
  | refl => exact hk.elim
  | @access _ _ launched moves _ h =>
    cases launched with
    | true =>
      obtain ⟨rfl, -⟩ := h.of_done
      exact hk.elim
    | false =>
      cases h with
      | refl => exact hk.elim
      | access h =>
        cases h with
        | refl => exact hk.elim
        | @access _ _ _ moves _ h =>
          replace hk : (moves.foldl lifecycle.after (.executing 0)).Showing k := hk
          -- Three moves come before the first step: the launch, the start and the first status.
          have hsteps (before : List Move) {first : List Move}
              {p : Process (Except Outcome String)} (hp : (e.stepsFrom 0 ts).Path first p)
              (hfirst : (first.foldl lifecycle.after (.executing 0)).Showing k) :
              Succeeded e (ts.take k) (before ++ first) :=
            @succeeded_of_stepsFrom e ts [] first before p 0 k hp .nil (Nat.le_refl 0) hfirst
          rcases h.of_bind with ⟨p, hp, -⟩ | ⟨first, result, rest, rfl, hp, h⟩
          · exact hsteps [_, _, _] hp hk
          · obtain ⟨j, hj⟩ := (body_keeps_lifecycle e (.steps ts)).path hp
            rw [List.foldl_append, hj] at hk
            obtain rfl := showing_of_finish h hk
            exact (hsteps [_, _, _] hp (hj ▸ rfl)).append rest

end Engine

end Stepwise
