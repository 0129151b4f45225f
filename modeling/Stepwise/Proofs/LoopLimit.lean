import Stepwise.Proofs.Comparison

/-!
# The limit of loops

A loop that sets no limit for itself is ended by the limit of its engine. An engine with a higher
limit does the same with every script, unless the lower one was passed; and then it begins with what
was done up to that point.

* `Engine.raised_follows`: a lower limit and a higher one.
* `Engine.execute_raised`: scripts under the two limits.
-/

namespace Stepwise.Engine

variable {τ : Type}

/-- The engine with another limit for loops that set none for themselves. -/
def withLoopLimit (e : Engine) (limit : Nat) : Engine :=
  { e with config := { e.config with maxLoopIterations := limit } }

/-- The engine with the lower limit does what the other one does, or a loop passes the limit. -/
theorem raised_follows (e : Engine) {limit higher : Nat} (h : limit ≤ higher) :
    (e.withLoopLimit limit).Follows Eq (· = .loopLimitExceeded) (e.withLoopLimit higher) where
  registry := rfl
  refl _ := rfl
  isError := congrArg _
  failures _ _ _ := rfl
  resolves _ _ := .refl _
  commandTimeout := rfl
  httpTimeout := rfl
  limit := .inr ⟨h, rfl⟩

/-- A script that stays within the limit does the same under a higher one, and comes to the same.
One that passes it, and even one that passes the limit of a loop of its own, has the effects it has
under the higher one, up to some point. -/
theorem execute_raised (e : Engine) {limit higher : Nat} (hlimit : limit ≤ higher)
    (world : World τ) (run : String) (script : Script) (r : Run) (t : τ) :
    let low := (e.withLoopLimit limit).execute run script
    let high := (e.withLoopLimit higher).execute run script
    ((∀ o, (low.run world r t).1 = .error o → o.category ≠ some .loopLimitExceeded) →
      high.run world r t = low.run world r t) ∧
    low.effects world r t <+: high.effects world r t := by
  intro low high
  have hfollows := e.raised_follows hlimit
  refine ⟨fun h => ?_, hfollows.effects_execute world run script r t⟩
  refine hfollows.run_execute world run script r t fun o ho => ?_
  rintro ⟨-, k, hk, rfl⟩
  exact h o ho hk

/-- A loop of two passes stays within a limit of two, and passes a limit of one when its body has
been run once. -/
theorem execute_raised_counting :
    let counts : Step := ⟨[("action", .str "set_var"), ("name", .str "i"), ("value", .str "i + 1"),
      ("eval", .bool true)]⟩
    let script := Script.steps [⟨[("action", .str "loop"), ("condition", .str "i < 2"),
      ("loop_steps", .list [counts.toValue])]⟩]
    let r := (Run.create "counting" {} {}).seed [("i", .int 0)]
    let world := World.answering Wait.quiet
    let p (limit : Nat) := (Engine.withLoopLimit {} limit).execute "counting" script
    2 ≤ 1000 ∧ (p 1000).run world r () = (p 2).run world r () ∧
      (((p 2).run world r ()).2.1.store.get? "i").map Value.display = some "2" ∧
      1 ≤ 1000 ∧ (p 1).effects world r () <+: (p 1000).effects world r () ∧
      ((p 1).effects world r ()).length = 1 ∧ ((p 1000).effects world r ()).length = 2 := by
  intro counts script r world p
  have hresult : ((p 2).run world r ()).1.isOk = true := by decide +kernel
  obtain ⟨hsame, -⟩ :=
    execute_raised {} (show 2 ≤ 1000 by decide) world "counting" script r ()
  obtain ⟨-, hprefix⟩ :=
    execute_raised {} (show 1 ≤ 1000 by decide) world "counting" script r ()
  refine ⟨by decide, hsame fun o ho => ?_, by decide +kernel, by decide, hprefix,
    by decide +kernel, by decide +kernel⟩
  rw [show ((p 2).run world r ()).1 = .error o from ho] at hresult
  cases hresult

end Stepwise.Engine
