import Mathlib.Data.List.Induction
import Stepwise.Proofs.Triggers

/-!
# What an execution does about triggers

Among the moves of an execution a trigger is recorded right after a step of the script has looked at
the variables, and the success of this step is written right behind it. No other step and no line
does either, so there are as many triggers as such successes, but for the moment between the two.

* `Watch.triggers`: where a trigger may be recorded, and what must follow.
* `Process.Steady`: processes that keep to this.
* `Engine.dispatch_trigger_steady`: the steps that ask for triggers.
* `Engine.execute_steady`: the steps and the lines of a script.
* `Process.Steady.balanced`: triggers against successes.
-/

namespace Stepwise

/-! ## Moves that record triggers -/

namespace Move

/-- The trigger that is recorded with the move. -/
def trigger? : Move → Option Trigger
  | .access (.record t) _ => some t
  | _ => none

theorem eq_record {move : Move} {t : Trigger} (h : move.trigger? = some t) :
    move = .access (.record t) () := by
  cases move with
  | wait => cases h
  | access c x =>
    cases c with
    | record => rw [← Option.some.inj h]
    | _ => cases h

/-- The success of a step that asked for a trigger, if it is written with the move. -/
def success? : Move → Option Outcome
  | .access (.log entry) _ =>
    if entry.action = "trigger" ∧ entry.outcome.isError = false then some entry.outcome else none
  | _ => none

end Move

/-- The last of the moves recorded a trigger. -/
def Pending (moves : List Move) : Prop := ∃ move ∈ moves.getLast?, move.trigger?.isSome = true

/-- Lets a trigger be recorded where a step that asks for it has just looked at the variables, and
nothing else be done before this step has written its success. -/
def Watch.triggers (e : Engine) (P : Step → Prop) : Watch (List Move) where
  allows moves
    | .record t => ∃ s store front, P s ∧ e.Records s store t ∧
        moves = front ++ [.access (.poll (.step s)) false, .access .read store]
    | .log entry => Pending moves ↔ entry.action = "trigger" ∧ entry.outcome.isError = false
    | _ => ¬Pending moves
  allowsWait moves _ := ¬Pending moves
  answered moves c x := moves ++ [.access c x]
  awaited moves w x := moves ++ [.wait w x]

variable {α β : Type} {e : Engine} {P : Step → Prop} {moves : List Move} {move : Move}

theorem pending_snoc : Pending (moves ++ [move]) ↔ move.trigger?.isSome = true := by
  simp [Pending]

theorem not_pending_snoc (h : move.trigger? = none) : ¬Pending (moves ++ [move]) := by
  rw [pending_snoc, h]
  exact Bool.false_ne_true

theorem not_pending_nil : ¬Pending [] := fun ⟨_, h, _⟩ => nomatch h

/-- While no trigger waits for the success of its step, other accesses may be made. -/
theorem Watch.triggers_plain {c : Run.Access} (hc : c.isPlain = true) :
    (triggers e P).Passes (¬Pending ·) c := by
  intro moves h
  cases c with
  | record | log => cases hc
  | launch | start | announce | enter | blame | poll | read | assign | print =>
    exact ⟨h, fun _ => not_pending_snoc rfl⟩

/-- So may waits be begun. -/
theorem Watch.triggers_wait (w : Wait) : (triggers e P).PassesWait (¬Pending ·) w :=
  fun _ h => ⟨h, fun _ => not_pending_snoc rfl⟩

/-- And so may entries be written that are no success of a trigger. -/
theorem Watch.triggers_log {entry : Run.Entry} (hentry : entry.action ≠ "trigger") :
    (triggers e P).Passes (¬Pending ·) (.log entry) :=
  fun _ h => ⟨iff_of_false h fun hsuccess => hentry hsuccess.1, fun _ => not_pending_snoc rfl⟩

/-- Every trigger that the process records is recorded where it may be, and in the end none waits
for its step. -/
def Process.Steady (e : Engine) (P : Step → Prop) (p : Process α) : Prop :=
  p.Abides (.triggers e P) (¬Pending ·)

namespace Engine

variable {s : Step}

/-- Among the actions only triggers are minded. -/
theorem minds_triggers (he : e.registry = .builtins) :
    e.Minds (.triggers e P) (¬Pending ·) .trigger where
  plain _ hc := Watch.triggers_plain hc
  waits w _ := Watch.triggers_wait w
  records h := absurd rfl h
  commands _ _ _ := Watch.triggers_wait _
  steps s d hd hk o := by
    obtain ⟨k, rfl, -⟩ := actionOf_builtins he hd
    have hne : k ≠ .trigger := fun h => hk (congrArg Handler.builtin h)
    exact Watch.triggers_log fun hname => hne (Action.Kind.name_inj hname)
  lines _ := Watch.triggers_log (by decide : Snippet.actionName ≠ "trigger")

/-- A step that asks for a trigger has it recorded as it should be. -/
theorem dispatch_trigger_steady (he : e.registry = .builtins) (hs : s.action? = some "trigger")
    (hP : P s) : (e.dispatch s).Steady e P := by
  intro moves hmoves
  obtain ⟨next, hnext, hcancelled, hprepared⟩ := dispatch_trigger he hs
  rw [hnext]
  refine ⟨hmoves, fun cancelled => ?_⟩
  cases cancelled with
  | true =>
    rw [hcancelled]
    exact not_pending_snoc rfl
  | false =>
    rcases hprepared with ⟨c, -, hrefused⟩ | ⟨-, look, hlook, hstore⟩
    · rw [hrefused]
      exact not_pending_snoc rfl
    · rw [hlook]
      refine ⟨not_pending_snoc rfl, fun store => ?_⟩
      rcases hstore store with ⟨c, -, hrefused⟩ | ⟨s', t, message, -, ht, hrecord⟩
      · rw [hrefused]
        exact not_pending_snoc rfl
      · -- Recording leaves one trigger pending, and logging the success settles it.
        rw [hrecord]
        refine ⟨⟨s, store, moves, hP, ht, List.append_assoc ..⟩, fun _ => ?_⟩
        refine ⟨iff_of_true (pending_snoc.mpr rfl) ⟨rfl, rfl⟩, fun _ => ?_⟩
        exact not_pending_snoc rfl

/-- An execution has the triggers recorded that are asked for in its script, and no others. -/
theorem execute_steady (he : e.registry = .builtins) (run : String) (script : Script) :
    (e.execute run script).Steady e script.Has := by
  have hgenuine : e.registry.Genuine := he ▸ Registry.genuine_builtins
  refine execute_abides (minds_triggers he) hgenuine run fun s hs hd => ?_
  obtain ⟨k, hk, hname⟩ := actionOf_builtins he hd
  obtain rfl : Action.Kind.trigger = k := Handler.builtin.inj (congrArg Descriptor.handler hk)
  exact dispatch_trigger_steady he hname hs

end Engine

/-! ## Triggers and successes -/

namespace Watch

theorem foldl_triggers (moves : List Move) : moves.foldl (triggers e P).after [] = moves :=
  foldl_noting moves []

/-- A trigger waits for the success of its step just where that is written. -/
theorem pending_of_permits (h : (triggers e P).permits moves move) :
    Pending moves ↔ move.success?.isSome = true := by
  cases move with
  | wait w x => exact iff_of_false h (by simp [Move.success?])
  | access c x =>
    cases c with
    | record t =>
      obtain ⟨s, store, front, -, -, rfl⟩ := h
      exact iff_of_false (by simp [Pending, Move.trigger?]) (by simp [Move.success?])
    | log entry =>
      refine Iff.trans h ?_
      unfold Move.success?
      split <;> simp_all
    | _ => exact iff_of_false h (by simp [Move.success?])

end Watch

/-- As many successes are written as triggers recorded, but for one that waits for its step. -/
theorem Process.Steady.balanced {p q : Process α} (hp : p.Steady e P) (h : p.Path moves q) :
    (¬Pending moves → (moves.filterMap Move.trigger?).length =
      (moves.filterMap Move.success?).length) ∧
    (Pending moves → (moves.filterMap Move.trigger?).length =
      (moves.filterMap Move.success?).length + 1) := by
  induction moves using List.reverseRecOn generalizing q with
  | nil => exact ⟨fun _ => rfl, fun h => absurd h not_pending_nil⟩
  | append_singleton before move ih =>
    obtain ⟨p', hbefore, -⟩ := h.split
    have hpermits := (hp [] not_pending_nil).permits h
    rw [Watch.foldl_triggers] at hpermits
    have hpending := Watch.pending_of_permits hpermits
    obtain ⟨hsettled, hunderway⟩ := ih hbefore
    have hlength {β : Type} (f : Move → Option β) : ((before ++ [move]).filterMap f).length =
        (before.filterMap f).length + if (f move).isSome then 1 else 0 := by
      rw [List.filterMap_append, List.length_append]
      cases h : f move <;> simp [h]
    rw [hlength, hlength, pending_snoc]
    -- A success is written just where a trigger waits, and then none waits any more.
    by_cases hbefore : Pending before
    · rw [if_pos (hpending.mp hbefore), hunderway hbefore]
      exact ⟨fun h => by rw [if_neg h], fun h => by rw [if_pos h]⟩
    · rw [if_neg (mt hpending.mpr hbefore), hsettled hbefore]
      exact ⟨fun h => by rw [if_neg h], fun h => by rw [if_pos h]⟩

end Stepwise
