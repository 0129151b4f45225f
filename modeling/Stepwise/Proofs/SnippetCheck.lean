import Stepwise.Proofs.Excerpt
import Stepwise.Proofs.Lifecycle

/-!
# The check of a snippet and its execution

The check of a snippet screens its lines, and the execution screens each line again before anything
in it is evaluated, and once more what is handed over to the evaluator. Both come to the same: in a
snippet without issues nothing is ever refused, and a snippet with issues gets at most to the line
of the first one, where it ends with an outcome that tells of that issue.

* `Outcome.Refused`: the screens refused a text.
* `Engine.execute_never_refused`: a snippet without issues.
* `Watch.stopping`: once a step is shown, the process only does what is planned.
* `Engine.execute_stops_at_issue`: a snippet with issues.
* `Engine.issues_foretell_execution`: both at once.
-/

namespace Stepwise

deriving instance DecidableEq for Issue

variable {α : Type}

/-- One of the screens refused a text. -/
def Cause.Refuses (c : Cause) : Prop := c.category = .unsafeExpression ∨ c.category = .unsafeCommand

/-- The outcome says that one of the screens refused a text. -/
def Outcome.Refused (o : Outcome) : Prop :=
  o.category = some .unsafeExpression ∨ o.category = some .unsafeCommand

theorem Cause.OfExpression.not_refuses {c : Cause} (h : c.OfExpression) : ¬c.Refuses := by
  cases c with
  | expression fault => exact fun hc => hc.elim nofun nofun
  | undefinedVariable name => exact fun hc => hc.elim nofun nofun
  | _ => exact h.elim

namespace Snippet

variable {source : String} {index : Nat} {line : String} {config : Config}

theorem screen_eq_ok_iff :
    screen line = .ok () ↔ Screen.expression line = .ok () ∧ Screen.command line = .ok () := by
  refine Except.bind_eq_ok.trans ⟨?_, fun ⟨h, h'⟩ => ⟨(), h, h'⟩⟩
  rintro ⟨_, h, h'⟩
  exact ⟨h, h'⟩

/-- Without issues every line passes the screens. -/
theorem screen_of_issues_eq_nil (h : issues source = [])
    (hline : (index, line) ∈ statements source) : screen line = .ok () := by
  have hnone := List.filterMap_eq_nil_iff.mp h _ hline
  dsimp only at hnone
  split at hnone
  · assumption
  · cases hnone

/-- The first issue is that of a line which the screens refuse, and the lines before it pass. -/
theorem statements_of_issues_eq_cons {issue : Issue} {rest : List Issue}
    (h : issues source = issue :: rest) :
    ∃ before index line after, statements source = before ++ (index, line) :: after ∧
      (∀ entry ∈ before, screen entry.2 = .ok ()) ∧ issue.path = linePath index ∧
      screen line = .error issue.cause := by
  obtain ⟨before, ⟨index, line⟩, after, hlines, hbefore, hissue, -⟩ :=
    List.filterMap_eq_cons_iff.mp h
  refine ⟨before, index, line, after, hlines, fun entry hentry => ?_, ?_⟩
  · have hnone := hbefore entry hentry
    dsimp only at hnone
    split at hnone
    · assumption
    · cases hnone
  · dsimp only at hissue
    split at hissue
    · cases hissue
    · cases hissue
      exact ⟨rfl, ‹_›⟩

/-- A line that is refused is not looked at any further. -/
theorem run_carryOutLine_refused {c : Cause} (h : screen line = .error c) :
    (carryOutLine line).run = .done (.error c) := by
  unfold carryOutLine
  rw [h]
  rfl

theorem refused_failure {c : Cause} (h : ¬c.Refuses) : ¬(failure config index c).Refused :=
  fun hr => h (hr.imp Option.some.inj Option.some.inj)

/-- Where the line passes the screens, what it hands over passes as well, so that its statement
fails only because of what the expression says. -/
theorem carryOutLine_keeps_screened {γ : Type} {m : Watch γ} {E : Cause → γ → Prop} {g : γ}
    (hg : m.Lenient E g) (h : screen line = .ok ()) :
    Attempt.Keeps m (fun _ g' => g' = g) (fun c g' => c.OfExpression ∧ g' = g) g
      (carryOutLine line) := by
  have hscreened : Screen.expression (String.ofList (Statement.ofLine line.toList).handedOver) =
      .ok () := by
    refine Statement.handedOver_screened ?_
    rw [String.ofList_toList]
    exact (screen_eq_ok_iff.mp h).1
  have hevaluate {store : Store} {Q : Value → γ → Prop} {text : String}
      (htext : Screen.expression text = .ok ()) (hQ : ∀ v, Q v g) :
      Attempt.Keeps m Q (fun c g' => c.OfExpression ∧ g' = g) g
        (Attempt.settled (Expr.evaluate text store)) :=
    .settled (fun v _ => hQ v) fun c hc =>
      ⟨Expr.evaluate_failsOnly_of_screened htext store c hc, rfl⟩
  unfold carryOutLine
  refine .bind (.settled (fun _ _ => ?_) fun c hc => ?_)
  · -- All three statements evaluate what they hand over; that done, there is only one access left.
    generalize Statement.ofLine line.toList = s at hscreened ⊢
    cases s with
    | print arguments =>
      refine .bind (.access_ignored hg.read fun store => .bind (hevaluate hscreened fun v => ?_))
      exact .bind (.access_ignored (hg.print _) fun _ => .pure rfl)
    | assign name expression =>
      refine .bind (.access_ignored hg.read fun store => .bind (hevaluate hscreened fun v => ?_))
      exact .bind (.access_ignored (hg.assign _ _) fun _ => .pure rfl)
    | evaluate expression =>
      refine .bind (.access_ignored hg.read fun store => .bind (hevaluate hscreened fun v => ?_))
      exact .pure rfl
  · rw [h] at hc
    cases hc

end Snippet

/-! ## Snippets without issues -/

/-- No outcome is made known that tells of a refusal. -/
def Monitor.unrefused : Monitor Unit where
  allows _ c := ∀ o, c.outcome? = some o → ¬o.Refused

theorem Monitor.unrefused_allows {c : Run.Access} (h : c.outcome? = none) :
    unrefused.allows () c := outcomes_allows h

theorem Monitor.unrefused_lenient : unrefused.watch.Lenient (fun _ _ => True) () :=
  outcomes_lenient

namespace Engine

open Snippet (statements screen)

/-- What came of a snippet was not refused. -/
def Unrefused : Except Outcome String → Unit → Prop := Attempt.Either (fun _ _ => True)
  fun o _ => ¬o.Refused

theorem statementsFrom_never_refused (config : Config) {lines : List (Nat × String)}
    (h : ∀ entry ∈ lines, screen entry.2 = .ok ()) (done : Nat) :
    (Snippet.statementsFrom config done lines).Keeps Monitor.unrefused.watch Unrefused () := by
  -- By induction on the lines: none of them is refused, so no outcome that is logged is a refusal.
  induction lines generalizing done with
  | nil => exact trivial
  | cons entry rest ih =>
    obtain ⟨index, line⟩ := entry
    obtain ⟨hline, hrest⟩ := List.forall_mem_cons.mp h
    rw [Snippet.statementsFrom_cons]
    refine ⟨trivial, fun _ => ⟨Monitor.unrefused_allows rfl, fun cancelled => ?_⟩⟩
    cases cancelled with
    | true => exact Snippet.refused_failure (fun hc => hc.elim nofun nofun)
    | false =>
      refine ⟨Monitor.unrefused_allows rfl, fun _ => .bind (Process.Keeps.mono
        (Snippet.carryOutLine_keeps_screened Monitor.unrefused_lenient hline) ?_)⟩
      intro result _ hresult
      have houtcome : ¬(Snippet.outcome config index result).Refused := by
        cases result with
        | ok message => exact fun hr => hr.elim nofun nofun
        | error c => exact Snippet.refused_failure hresult.1.not_refuses
      refine ⟨fun o ho => Option.some.inj ho ▸ houtcome, fun _ => ?_⟩
      split
      · exact houtcome
      · exact ih hrest (done + 1)

/-- No statement of a snippet without issues is ever refused. -/
theorem execute_never_refused (e : Engine) (name : String) {source : String}
    (h : Snippet.issues source = []) :
    (e.execute name (.snippet source)).Keeps Monitor.unrefused.watch Unrefused () := by
  have hlines : ∀ entry ∈ statements source, screen entry.2 = .ok () :=
    fun entry hentry => Snippet.screen_of_issues_eq_nil h hentry
  rw [execute_eq]
  refine ⟨Monitor.unrefused_allows rfl, fun launched => ?_⟩
  cases launched with
  | true => exact fun hr => hr.elim nofun nofun
  | false =>
    refine ⟨Monitor.unrefused_allows rfl, fun _ => ⟨Monitor.unrefused_allows rfl,
      fun _ => .bind ?_⟩⟩
    refine (statementsFrom_never_refused e.config hlines 0).mono fun result _ hresult => ?_
    cases result with
    | ok message => exact ⟨Monitor.unrefused_allows rfl, fun _ => hresult⟩
    | error o =>
      exact ⟨fun o' ho => Option.some.inj ho ▸ hresult,
        fun _ => ⟨Monitor.unrefused_allows rfl, fun _ => hresult⟩⟩

end Engine

/-! ## Snippets with issues -/

/-- The access of a move, unless the process waits. -/
def Move.access? : Move → Option Run.Access
  | .access c _ => some c
  | .wait .. => none

/-- Once the step with this index is shown, the process only makes the accesses that are planned,
one after the other, and waits no more. Success is never announced. -/
def Watch.stopping (index : Nat) (plan : List Run.Access) : Watch (Option (List Run.Access)) where
  allows
    | none, c => c ≠ .announce .completed
    | some left, c => left.head? = some c ∧ c ≠ .enter index ∧ c ≠ .announce .completed
  allowsWait g _ := g = none
  answered
    | none, .enter i, _ => if i = index then some plan else none
    | none, _, _ => none
    | some left, _, _ => some left.tail

namespace Watch

variable {index : Nat} {plan left : List Run.Access} {p q : Process α} {moves : List Move}
  {Q : α → Option (List Run.Access) → Prop}

theorem stopping_lenient : (stopping index plan).Lenient (fun _ g => g = none) none where
  own c hc := by
    rintro rfl
    exact hc
  unmoved c _ hc _ := by
    cases c with
    | enter => exact hc.elim
    | _ => rfl
  cancelled := rfl
  waits _ _ := rfl
  lasting _ _ _ := rfl
  interrupted _ _ _ := rfl
  fails _ _ := rfl

theorem stopping_enter {i : Nat} {next : Unit → Process α}
    (h : ∀ x, (next x).Keeps (stopping index plan) Q (if i = index then some plan else none)) :
    (Process.access (.enter i) next).Keeps (stopping index plan) Q none := ⟨nofun, h⟩

/-- From then on the moves are the first accesses of the plan, and the others are still to come. -/
theorem stopping_path (h : p.Keeps (stopping index plan) Q (some left)) (hp : p.Path moves q) :
    ∃ made rest, left = made ++ rest ∧ moves.map Move.access? = made.map some ∧
      q.Keeps (stopping index plan) Q (some rest) := by
  induction hp generalizing left with
  | refl => exact ⟨[], left, rfl, rfl, h⟩
  | @access c next x moves q _ ih =>
    obtain ⟨tail, rfl⟩ := List.head?_eq_some_iff.mp h.1.1
    have hnext : (next x).Keeps (stopping index plan) Q (some tail) := h.2 x
    obtain ⟨made, rest, hleft, hmoves, hq⟩ := ih hnext
    exact ⟨c :: made, rest, congrArg (c :: ·) hleft, congrArg (some c :: ·) hmoves, hq⟩
  | wait _ _ => cases h.1

/-- The step is shown at most once. -/
theorem stopping_split {before after : List Move} {x : Unit}
    (h : p.Keeps (stopping index plan) Q none)
    (hp : p.Path (before ++ .access (.enter index) x :: after) q) :
    ∃ made rest, plan = made ++ rest ∧ after.map Move.access? = made.map some ∧
      q.Keeps (stopping index plan) Q (some rest) := by
  obtain ⟨p', hbefore, hafter⟩ := hp.split
  replace h := h.path hbefore
  generalize before.foldl (stopping index plan).after none = g at h
  cases hafter with
  | access hafter =>
    cases g with
    | none =>
      refine stopping_path ?_ hafter
      have hnext := h.2 x
      rwa [show (stopping index plan).answered none (.enter index) x = some plan from
        if_pos rfl] at hnext
    | some left => exact absurd rfl h.1.2.1

/-- Success is never announced. -/
theorem stopping_not_completed {g : Option (List Run.Access)} {x : Unit}
    (h : p.Keeps (stopping index plan) Q g) (hp : p.Path moves q) :
    Move.access (.announce .completed) x ∉ moves := by
  intro hmem
  obtain ⟨before, after, rfl⟩ := List.append_of_mem hmem
  have hpermits := h.permits hp
  generalize before.foldl (stopping index plan).after g = g' at hpermits
  cases g' with
  | none => exact hpermits rfl
  | some left => exact hpermits.2.2 rfl

end Watch

namespace Engine

open Snippet (statements screen linePath)

/-- What is done once an outcome is known that ends a snippet with an error. -/
def ending (o : Outcome) : List Run.Access :=
  [.log ⟨Snippet.actionName, o⟩, .blame o, .announce .error]

/-- A snippet did not succeed: the line in question was not reached, or all that is left to do is
`left` and the outcome is `o`. -/
def StoppedAt (o : Outcome) (left : List Run.Access) (result : Except Outcome String)
    (g : Option (List Run.Access)) : Prop :=
  (∃ o', result = .error o') ∧ (g = none ∨ g = some left ∧ result = .error o)

/-- The lines before the refused one may succeed, fail or be cancelled. The refused one fails before
anything else is done. -/
theorem statementsFrom_stops {config : Config} {before : List (Nat × String)} {index : Nat}
    {line : String} {c : Cause} (hbefore : ∀ entry ∈ before, entry.1 ≠ index)
    (hc : screen line = .error c) (after : List (Nat × String)) (done : Nat) :
    (Snippet.statementsFrom config done (before ++ (index, line) :: after)).Keeps
      (.stopping index (ending (Snippet.failure config index c)))
      (StoppedAt (Snippet.failure config index c) (ending (Snippet.failure config index c)).tail)
      none := by
  induction before generalizing done with
  | nil =>
    rw [List.nil_append, Snippet.statementsFrom_cons]
    -- A cancellation is seen before the line is shown; behind that only the refusal is left.
    refine ⟨rfl, fun _ => ⟨nofun, fun cancelled => ?_⟩⟩
    cases cancelled with
    | true => exact ⟨⟨_, rfl⟩, .inl rfl⟩
    | false =>
      refine Watch.stopping_enter fun _ => ?_
      rw [Snippet.run_carryOutLine_refused hc, if_pos rfl]
      exact ⟨⟨rfl, nofun, nofun⟩, fun _ => ⟨⟨_, rfl⟩, .inr ⟨rfl, rfl⟩⟩⟩
  | cons entry before ih =>
    obtain ⟨i, text⟩ := entry
    obtain ⟨hi, hrest⟩ := List.forall_mem_cons.mp hbefore
    rw [List.cons_append, Snippet.statementsFrom_cons]
    refine ⟨rfl, fun _ => ⟨nofun, fun cancelled => ?_⟩⟩
    cases cancelled with
    | true => exact ⟨⟨_, rfl⟩, .inl rfl⟩
    | false =>
      -- The line has an index of its own, so that showing it does not begin the ending.
      refine Watch.stopping_enter fun _ => ?_
      rw [if_neg hi]
      refine .bind ((carryOutLine_keeps Watch.stopping_lenient text).mono fun result g hg => ?_)
      subst hg
      refine ⟨nofun, fun _ => ?_⟩
      split
      · exact ⟨⟨_, rfl⟩, .inl rfl⟩
      · exact ih hrest (done + 1)

/-- A snippet with issues never succeeds, and ends at the line of the first one if it gets there. -/
theorem execute_stops_at_issue (e : Engine) (name : String) {source : String} {issue : Issue}
    {rest : List Issue} (h : Snippet.issues source = issue :: rest) :
    ∃ index line, (index, line) ∈ statements source ∧ issue.path = linePath index ∧
      (e.execute name (.snippet source)).Keeps
        (.stopping index (ending (Snippet.failure e.config index issue.cause)))
        (StoppedAt (Snippet.failure e.config index issue.cause) []) none := by
  obtain ⟨before, index, line, after, hlines, -, hpath, hissue⟩ :=
    Snippet.statements_of_issues_eq_cons h
  -- Lines are numbered upwards, so the index of the refused one stands for no earlier line.
  have hbefore : ∀ entry ∈ before, entry.1 ≠ index := by
    have hsorted := Snippet.statements_pairwise source
    rw [hlines, List.pairwise_append] at hsorted
    exact fun entry hentry => Nat.ne_of_lt (hsorted.2.2 entry hentry _ List.mem_cons_self)
  refine ⟨index, line, by rw [hlines]; simp, hpath, ?_⟩
  rw [execute_eq]
  refine ⟨by rintro ⟨⟩, fun launched => ?_⟩
  -- A run that was launched before does not begin. Otherwise the refused line is reached or not.
  cases launched with
  | true => exact ⟨⟨_, rfl⟩, .inl rfl⟩
  | false =>
    refine ⟨by rintro ⟨⟩, fun _ => ⟨by rintro ⟨⟩, fun _ => .bind ?_⟩⟩
    rw [body, Snippet.process, hlines]
    refine (statementsFrom_stops hbefore hissue after 0).mono ?_
    rintro _ g ⟨⟨o', rfl⟩, rfl | ⟨rfl, ho⟩⟩
    · exact ⟨by rintro ⟨⟩, fun _ => ⟨by rintro ⟨⟩, fun _ => ⟨⟨o', rfl⟩, .inl rfl⟩⟩⟩
    · cases ho
      refine ⟨⟨rfl, by rintro ⟨⟩, by rintro ⟨⟩⟩, fun _ => ?_⟩
      refine ⟨⟨rfl, by rintro ⟨⟩, by rintro ⟨⟩⟩, fun _ => ?_⟩
      exact ⟨⟨_, rfl⟩, .inr ⟨rfl, rfl⟩⟩

/-- The check of a snippet tells what becomes of every execution, at whatever point that is. Without
issues, what every line hands over passes the screen, and no outcome tells of a refusal. With
issues, the snippet never succeeds; and once the line of the first issue is shown, all that is done
is to make an outcome known that tells of the issue, with which the execution ends. -/
theorem issues_foretell_execution (e : Engine) (name source : String) {moves : List Move}
    {q : Process (Except Outcome String)} (h : (e.execute name (.snippet source)).Path moves q) :
    (Snippet.issues source = [] →
      (∀ entry ∈ statements source, Screen.expression
        (String.ofList (Statement.ofLine entry.2.toList).handedOver) = .ok ()) ∧
      (∀ c x o, .access c x ∈ moves → c.outcome? = some o → ¬o.Refused) ∧
      ∀ o, q = .done (.error o) → ¬o.Refused) ∧
    ∀ issue rest, Snippet.issues source = issue :: rest →
      (∀ message, q ≠ .done (.ok message)) ∧ .access (.announce .completed) () ∉ moves ∧
      ∃ index line o, (index, line) ∈ statements source ∧ issue.path = linePath index ∧
        o.isError = true ∧ o.category = some issue.cause.category ∧
        o.message = issue.path ++ ": " ++ issue.cause.message ∧
        ∀ before after, moves = before ++ .access (.enter index) () :: after →
          after.map Move.access? <+: (ending o).map some ∧
          ∀ result, q = .done result →
            result = .error o ∧ after.map Move.access? = (ending o).map some := by
  refine ⟨fun hnone => ⟨fun entry hentry => ?_, ?_, ?_⟩, fun issue rest hissue => ?_⟩
  · refine Statement.handedOver_screened ?_
    rw [String.ofList_toList]
    exact (Snippet.screen_eq_ok_iff.mp (Snippet.screen_of_issues_eq_nil hnone hentry)).1
  · intro c x o hmem
    exact (e.execute_never_refused name hnone).permits_of_mem h hmem o
  · rintro o rfl
    exact (e.execute_never_refused name hnone).path h
  · -- What the execution keeps to from the refused line on leaves it only the moves of its ending.
    obtain ⟨index, line, hline, hpath, hkeeps⟩ := e.execute_stops_at_issue name hissue
    refine ⟨?_, Watch.stopping_not_completed hkeeps h, index, line,
      Snippet.failure e.config index issue.cause, hline, hpath, rfl, rfl, ?_, ?_⟩
    · rintro message rfl
      obtain ⟨⟨o, ho⟩, -⟩ := hkeeps.path h
      cases ho
    · rw [hpath]
      rfl
    · rintro before after rfl
      obtain ⟨made, left, hplan, hafter, hq⟩ := Watch.stopping_split hkeeps h
      refine ⟨?_, ?_⟩
      · rw [hafter, hplan, List.map_append]
        exact List.prefix_append _ _
      · rintro result rfl
        obtain ⟨-, hg | ⟨hleft, hresult⟩⟩ := hq
        · cases hg
        · obtain rfl : left = [] := Option.some.inj hleft
          rw [List.append_nil] at hplan
          exact ⟨hresult, by rw [hafter, hplan]⟩

/-- A snippet without issues, and one whose second line is refused, which is where it ends. -/
theorem issues_foretell_execution_import :
    let e : Engine := {}
    let r := Run.create "checked" {} e.config
    let p (source : String) := e.execute "checked" (.snippet source)
    let moves (source : String) := (p source).moves (.answering Wait.quiet) r ()
    let result (source : String) := ((p source).run (.answering Wait.quiet) r ()).1
    let clean := "x = 1\nprint(x, 'from_x')"
    let refused := "x = 1\nimport os\nx = 2"
    (p clean).Path (moves clean) (.done (result clean)) ∧
      (p refused).Path (moves refused) (.done (result refused)) ∧
      Snippet.issues clean = [] ∧
      Screen.expression (String.ofList
        (Statement.ofLine "print(x, 'from_x')".toList).handedOver) = .ok () ∧
      Snippet.issues refused = [⟨"line 2", .unsafeExpression "import"⟩] ∧
      (∀ message, result refused ≠ .ok message) ∧
      (match result refused with | .ok message => message | .error o => o.message) =
        "line 2: Expression contains potentially dangerous operations: import" := by
  intro e r p moves result clean refused
  have hclean := (p clean).path_moves (.answering Wait.quiet) r ()
  have hrefused := (p refused).path_moves (.answering Wait.quiet) r ()
  have hnone : Snippet.issues clean = [] := by decide +kernel
  have hissue : Snippet.issues refused = [⟨"line 2", .unsafeExpression "import"⟩] := by
    decide +kernel
  obtain ⟨hscreened, -, -⟩ := (issues_foretell_execution e "checked" clean hclean).1 hnone
  obtain ⟨hfails, -⟩ := (issues_foretell_execution e "checked" refused hrefused).2 _ _ hissue
  have hprint := hscreened (1, "print(x, 'from_x')") (by decide +kernel)
  refine ⟨hclean, hrefused, hnone, hprint, hissue, fun message h => ?_, by decide +kernel⟩
  exact hfails message (congrArg Process.done h)

end Engine

end Stepwise
