import Stepwise.Proofs.Comparison

/-!
# Strict variables

Where a placeholder without a variable is an error, scripts do what they do where such placeholders
stay, or they end with that error. So the strict policy rejects, and changes nothing else.

* `Template.resolve_narrows`: data under the two policies.
* `Engine.execute_strict`: scripts under the two policies.
-/

namespace Stepwise

namespace Template

/-- A text whose placeholders cannot all be replaced is refused for that. -/
theorem fill_narrows (store : Store) (text : String) :
    Except.Narrows (fun c => c.category = .undefinedVariable) (fill store .error text)
      (fill store .preserve text) := by
  unfold fill
  dsimp only
  generalize (pieces text.toList).findSome? (Piece.undefined? store) = missing
  cases missing with
  | none => exact .refl _
  | some name => exact .inr ⟨_, rfl, rfl⟩

mutual

theorem resolve_narrows (store : Store) : ∀ v : Value,
    Except.Narrows (fun c => c.category = .undefinedVariable) (resolve store .error v)
      (resolve store .preserve v)
  | .str s => (fill_narrows store s).map
  | .list items => (resolveItems_narrows store items).map
  | .dict entries => (resolveEntries_narrows store entries).map
  | .null | .bool _ | .int _ | .float _ => .refl _

theorem resolveItems_narrows (store : Store) : ∀ items : List Value,
    Except.Narrows (fun c => c.category = .undefinedVariable) (resolveItems store .error items)
      (resolveItems store .preserve items)
  | [] => .refl _
  | v :: vs => .bind (resolve_narrows store v) fun _ =>
    .bind (resolveItems_narrows store vs) fun _ => .refl _

theorem resolveEntries_narrows (store : Store) : ∀ entries : List (String × Value),
    Except.Narrows (fun c => c.category = .undefinedVariable) (resolveEntries store .error entries)
      (resolveEntries store .preserve entries)
  | [] => .refl _
  | (_, v) :: rest => .bind (resolve_narrows store v) fun _ =>
    .bind (resolveEntries_narrows store rest) fun _ => .refl _

end

end Template

namespace Engine

variable {τ : Type}

/-- The engine with another policy for placeholders without a variable. -/
def withPolicy (e : Engine) (policy : Template.Policy) : Engine :=
  { e with config := { e.config with undefinedVariables := policy } }

/-- The strict engine does what the other one does, or fails for want of a variable. -/
theorem strict_follows (e : Engine) :
    (e.withPolicy .error).Follows Eq (· = .undefinedVariable) (e.withPolicy .preserve) where
  registry := rfl
  refl _ := rfl
  isError := congrArg _
  failures _ _ _ := rfl
  resolves := Template.resolve_narrows
  commandTimeout := rfl
  httpTimeout := rfl
  limit := .inl rfl

/-- A script that does not fail for want of a variable under the strict policy does the same under
the other one, and comes to the same. -/
theorem execute_strict (e : Engine) (world : World τ) (run : String) (script : Script) (r : Run)
    (t : τ)
    (h : ∀ o, (((e.withPolicy .error).execute run script).run world r t).1 = .error o →
      o.category ≠ some .undefinedVariable) :
    ((e.withPolicy .preserve).execute run script).run world r t =
      ((e.withPolicy .error).execute run script).run world r t := by
  rcases (e.strict_follows.execute run script).run world.simulates_self ⟨rfl, rfl⟩ with
    hstopped | ⟨hresult, ⟨hrun, hworld⟩, -⟩
  · generalize (((e.withPolicy .error).execute run script).run world r t).1 = result at h hstopped
    cases result with
    | ok message => exact hstopped.elim
    | error o =>
      obtain ⟨-, k, hk, rfl⟩ := hstopped
      exact absurd hk (h o rfl)
  · exact Prod.ext hresult.eq.symm (Prod.ext hrun.symm hworld.symm)

/-- A variable that is set is no matter of policy. -/
theorem execute_strict_set :
    let script := Script.steps [⟨[("action", .str "set_var"), ("name", .str "copy"),
      ("value", .str "$\x7bitem\x7d")]⟩]
    let r := (Run.create "copy" {} {}).seed [("item", .int 1)]
    let world := World.answering Wait.quiet
    let strict := (Engine.withPolicy {} .error).execute "copy" script
    ((strict.run world r ()).2.1.store.get? "copy").map Value.display = some "1" ∧
      ((Engine.withPolicy {} .preserve).execute "copy" script).run world r () =
        strict.run world r () := by
  intro script r world strict
  have hresult : (strict.run world r ()).1.isOk = true := by decide +kernel
  refine ⟨by decide +kernel, execute_strict {} world "copy" script r () fun o ho => ?_⟩
  rw [ho] at hresult
  cases hresult

end Engine

end Stepwise
