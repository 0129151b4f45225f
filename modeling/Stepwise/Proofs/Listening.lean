import Stepwise.Proofs.Following
import Stepwise.Session

/-!
# A listener is a consumer

In the timeline of a run a listener has a turn whenever the process waits. What it does then are the
questions of a consumer, asked until nothing happens any more, so a session that streams the output
of its run goes through moments of a run that is shared with a consumer.

* `Flush.Asks`: the consumer asks some questions while nothing else happens.
* `Listener.Like`: a listener stands where the consumer does.
* `Timeline.follows`: a process that is carried out in the timeline.
* `Session.stream_follows`: what a session streams is what is delivered to a consumer.
* `Following.Delivered`, `Following.delivers`: what is delivered, for every order of events.
-/

namespace Stepwise

namespace Flush

open Output (linesOf)

variable {room : Nat} {old new : List String} {o : Output} {status : Status} {f f' f'' : Flush}

/-! ## Some questions at once -/

/-- The consumer asks some questions while nothing else happens. -/
inductive Asks (o : Output) (status : Status) : Flush → Flush → Prop
  | refl {f : Flush} : Asks o status f f
  | step {f f' : Flush} (late : Bool) : Asks o status (f.step o status late) f' →
      Asks o status f f'

theorem Asks.trans (h : Asks o status f f') (h' : Asks o status f' f'') : Asks o status f f'' := by
  induction h with
  | refl => exact h'
  | step late _ ih => exact .step late (ih h')

theorem Asks.told (h : Asks o status f f') (ho : o.Sent room (old ++ new))
    (hf : f.Told room old new) : f'.Told room old new := by
  induction h with
  | refl => exact hf
  | step late _ ih => exact ih (hf.step ho _ late)

/-- It asks for the lines that are kept, one after the other. -/
theorem asks_lines (ho : o.Sent room (old ++ new)) (status : Status) {unread : List String}
    (hroom : unread.length ≤ room) (hunread : (old ++ new).drop f.position = unread)
    (hstage : f.stage = .receiving) :
    ∃ f', Asks o status f f' ∧ f'.stage = .receiving ∧ (old ++ new).drop f'.position = [] ∧
      f'.consumed = f.consumed ++ unread := by
  induction unread generalizing f with
  | nil => exact ⟨f, .refl, hstage, hunread, (List.append_nil _).symm⟩
  | cons text rest ih =>
    have hstep : f.step o status false =
        { (f.receive (.line text) (f.position + 1)).deliver text with
          delivered := f.delivered + 1 } := by
      rw [Flush.step, hstage]
      -- Lines are kept and there is room for them, so the next thing it gets is the first of them.
      rcases f.next_cases ho with ⟨-, hread⟩ | ⟨text', rest', hnext, hline, -⟩ | ⟨hlag, -⟩
      · rw [hunread] at hread
        cases hread
      · obtain ⟨rfl, rfl⟩ := List.cons.inj (hunread.symm.trans hline)
        rw [hnext]
      · rw [hunread] at hlag
        exact absurd hlag (Nat.not_lt_of_le hroom)
    have hrest : (old ++ new).drop (f.step o status false).position = rest := by
      rw [hstep]
      show (old ++ new).drop (f.position + 1) = rest
      rw [← List.drop_drop, hunread]
      rfl
    obtain ⟨f', hasks, hstage', hread, hconsumed⟩ :=
      ih (Nat.le_of_succ_le hroom) hrest (by rw [hstep]; exact hstage)
    refine ⟨f', .step false hasks, hstage', hread, ?_⟩
    rw [hconsumed, hstep]
    exact List.append_assoc ..

/-- It asks for all there is. -/
theorem asks_all (ho : o.Sent room (old ++ new)) (status : Status) (hstage : f.stage = .receiving) :
    ∃ f', Asks o status f f' ∧ f'.stage = .receiving ∧ (old ++ new).drop f'.position = [] ∧
      f'.consumed = f.consumed ++ linesOf (o.waiting f.position) := by
  rw [ho.waiting]
  -- More lines than there is room for: the oldest are lost, and it is told how many.
  rcases Nat.lt_or_ge room ((old ++ new).drop f.position).length with hlag | hkept
  · have hstep : f.step o status false =
        f.receive (.lagged (((old ++ new).drop f.position).length - room))
          (f.position + (((old ++ new).drop f.position).length - room)) := by
      rw [Flush.step, hstage]
      rcases f.next_cases ho with ⟨-, hread⟩ | ⟨_, _, -, -, hkept⟩ | ⟨-, hnext⟩
      · rw [hread] at hlag
        exact absurd hlag (Nat.not_lt_zero _)
      · exact absurd hlag (Nat.not_lt_of_le hkept)
      · rw [hnext]
    have hrest : (old ++ new).drop (f.step o status false).position =
        ((old ++ new).drop f.position).rtake room := by
      rw [hstep, List.rtake, List.drop_drop]
      rfl
    have hroom : (((old ++ new).drop f.position).rtake room).length ≤ room := by
      rw [List.rtake, List.length_drop]
      omega
    obtain ⟨f', hasks, hstage', hread, hconsumed⟩ :=
      asks_lines ho status hroom hrest (by rw [hstep]; exact hstage)
    refine ⟨f', .step false hasks, hstage', hread, ?_⟩
    rw [hconsumed, hstep, Output.available, if_pos hlag]
    exact congrArg (f.consumed ++ ·) (Received.linesOf_lines _).symm
  · -- None is lost.
    obtain ⟨f', hasks, hstage', hread, hconsumed⟩ :=
      asks_lines ho status hkept rfl hstage
    refine ⟨f', hasks, hstage', hread, ?_⟩
    rw [hconsumed, Output.available, if_neg (Nat.not_lt_of_le hkept), Received.linesOf_lines]

/-- When all is read, it goes on to ask whether the run has ended. -/
theorem step_of_read (ho : o.Sent room (old ++ new)) (status : Status)
    (hstage : f.stage = .receiving) (hread : (old ++ new).drop f.position = []) :
    f.step o status false = { f with stage := .asking } := by
  rw [step, hstage, (next_eq_none ho).mpr hread]

/-- It asks for all there is, whether the run has ended, which it has not, and then for the time. -/
theorem asks_round (ho : o.Sent room (old ++ new)) (hs : status.isTerminal = false)
    (hstage : f.stage = .receiving) (goesOn : Bool) :
    ∃ f', Asks o status f f' ∧ (old ++ new).drop f'.position = [] ∧
      f'.consumed = f.consumed ++ linesOf (o.waiting f.position) ∧
      f'.stage = if goesOn then .receiving else .returned f'.delivered false := by
  obtain ⟨f', hasks, hstage', hread, hconsumed⟩ := asks_all ho status hstage
  have hasked := step_of_read ho status hstage' hread
  have htimed : (f'.step o status false).step o status false = { f' with stage := .timing } := by
    rw [hasked, step, hs]
    rfl
  have hanswered : ((f'.step o status false).step o status false).step o status (!goesOn) =
      { f' with stage := if goesOn then .receiving else .returned f'.delivered false } := by
    rw [htimed]
    cases goesOn with
    | true | false => rfl
  refine ⟨_, hasks.trans (.step false (.step false (.step (!goesOn) .refl))), ?_⟩
  rw [hanswered]
  exact ⟨hread, hconsumed, rfl⟩

/-- It asks for all there is, whether the run has ended, which it has, and for what is left. -/
theorem asks_last (ho : o.Sent room (old ++ new)) (hs : status.isTerminal = true)
    (hstage : f.stage = .receiving) :
    ∃ f', Asks o status f f' ∧ f'.consumed = f.consumed ++ linesOf (o.waiting f.position) ∧
      f'.stage = .returned f'.delivered true := by
  obtain ⟨f', hasks, hstage', hread, hconsumed⟩ := asks_all ho status hstage
  have hasked := step_of_read ho status hstage' hread
  have hdrains : (f'.step o status false).step o status false =
      { f' with stage := .draining 0 } := by
    rw [hasked, step, hs]
    rfl
  have hreturns : ((f'.step o status false).step o status false).step o status false =
      { f' with stage := .returned f'.delivered true } := by
    have hnext : next { f' with stage := .draining 0 } o = none := (next_eq_none ho).mpr hread
    rw [hdrains, step, hnext]
    rfl
  refine ⟨_, hasks.trans (.step false (.step false (.step false .refl))), ?_⟩
  rw [hreturns]
  exact ⟨hconsumed, rfl⟩

/-- When all is read, the consumer stands behind all lines. -/
theorem Told.position_eq (h : f.Told room old new) (ho : o.Sent room (old ++ new))
    (hread : (old ++ new).drop f.position = []) : f.position = o.sent :=
  ho.sent ▸ h.position_le.antisymm (List.drop_eq_nil_iff.mp hread)

end Flush

/-! ## The listener -/

namespace Listener

open Output (linesOf)

variable {room : Nat} {old new : List String} {o : Output} {status : Status} {l : Listener}
  {f : Flush}

/-- The listener stands where the consumer does. -/
structure Like (l : Listener) (f : Flush) : Prop where
  position : l.position = f.position
  received : l.received.reverse = f.consumed
  stage : f.stage = if l.listening then .receiving else .returned f.delivered false

/-- In its turn a listener receives all there is. -/
theorem reverse_received_turn (hl : l.listening = true) (now : Nat) :
    (l.turn o now).received.reverse = l.received.reverse ++ linesOf (o.waiting l.position) := by
  rw [turn, hl]
  show ((linesOf (o.waiting l.position)).reverse ++ l.received).reverse = _
  rw [List.reverse_append, List.reverse_reverse]

theorem Like.turn (h : l.Like f) (ho : o.Sent room (old ++ new)) (hf : f.Told room old new)
    (hs : status.isTerminal = false) (now : Nat) :
    ∃ f', f.Asks o status f' ∧ (l.turn o now).Like f' ∧
      ((l.turn o now).listening = true → (old ++ new).drop f'.position = []) := by
  cases hl : l.listening with
  | false =>
    rw [Listener.turn, hl]
    exact ⟨f, .refl, h, fun hlistening => by cases hl.symm.trans hlistening⟩
  | true =>
    have hstage := h.stage
    rw [hl, if_pos rfl] at hstage
    obtain ⟨f', hasks, hread, hconsumed, hstage'⟩ :=
      Flush.asks_round ho hs hstage (now < l.deadline)
    have hposition := (hasks.told ho hf).position_eq ho hread
    have hreceived := reverse_received_turn (o := o) hl now
    rw [h.received, h.position, ← hconsumed] at hreceived
    refine ⟨f', hasks, ⟨?_, hreceived, ?_⟩, fun _ => hread⟩
    · rw [Listener.turn, hl]
      exact hposition.symm
    · rw [Listener.turn, hl]
      exact hstage'

/-- Time that passes only ends the listening, once the listener received what there was. -/
theorem Like.pass (h : l.Like f) (ho : o.Sent room (old ++ new)) (hf : f.Told room old new)
    (hs : status.isTerminal = false)
    (hread : l.listening = true → (old ++ new).drop f.position = []) (now : Nat) :
    ∃ f', f.Asks o status f' ∧ (l.pass now).Like f' := by
  cases hl : l.listening with
  | false =>
    refine ⟨f, .refl, h.position, h.received, ?_⟩
    rw [h.stage, hl, Listener.pass, hl]
    rfl
  | true =>
    have hstage := h.stage
    rw [hl, if_pos rfl] at hstage
    obtain ⟨f', hasks, hread', hconsumed, hstage'⟩ :=
      Flush.asks_round ho hs hstage (now ≤ l.deadline)
    refine ⟨f', hasks, ?_, ?_, ?_⟩
    · show l.position = f'.position
      rw [h.position, hf.position_eq ho (hread hl), (hasks.told ho hf).position_eq ho hread']
    · show l.received.reverse = f'.consumed
      rw [hconsumed, ho.waiting, hread hl, h.received]
      exact (List.append_nil _).symm
    · rw [hstage', Listener.pass, hl]
      rfl

end Listener

/-! ## The timeline -/

namespace Timeline

variable {room : Nat} {old new : List String} {o : Output} {status : Status} {t : Timeline}
  {f : Flush}

/-- There is a listener, and it stands where the consumer does. -/
def Like (t : Timeline) (f : Flush) : Prop := ∃ l, t.listener = some l ∧ l.Like f

theorem Like.listen (h : t.Like f) (ho : o.Sent room (old ++ new)) (hf : f.Told room old new)
    (hs : status.isTerminal = false) : ∃ f', f.Asks o status f' ∧ (t.listen o).Like f' := by
  obtain ⟨l, hl, hlike⟩ := h
  obtain ⟨f', hasks, hlike', -⟩ := hlike.turn ho hf hs t.now
  exact ⟨f', hasks, _, congrArg (Option.map _) hl, hlike'⟩

theorem Like.nextRound (h : t.Like f) (ho : o.Sent room (old ++ new)) (hf : f.Told room old new)
    (hs : status.isTerminal = false) : ∃ f', f.Asks o status f' ∧ (t.nextRound o).Like f' := by
  unfold Timeline.nextRound
  split
  · exact ⟨f, .refl, h⟩
  · exact h.listen ho hf hs

theorem Like.jump (h : t.Like f) (ho : o.Sent room (old ++ new)) (hf : f.Told room old new)
    (hs : status.isTerminal = false) (now : Nat) :
    ∃ f', f.Asks o status f' ∧ (t.jump o now).Like f' := by
  obtain ⟨l, hl, hlike⟩ := h
  obtain ⟨f₁, hasks₁, hlike₁, hread⟩ := hlike.turn ho hf hs t.now
  have hf₁ := hasks₁.told ho hf
  obtain ⟨f₂, hasks₂, hlike₂⟩ := hlike₁.pass ho hf₁ hs hread now
  have hpassed : Like { t with
      now
      listener := (t.listen o).listener.map (·.pass now)
      ahead := t.ahead != t.listener.any (·.isBehind o) } f₂ := by
    refine ⟨_, ?_, hlike₂⟩
    rw [Timeline.listen, hl]
    rfl
  obtain ⟨f₃, hasks₃, hlike₃⟩ := hpassed.nextRound ho (hasks₂.told ho hf₁) hs
  exact ⟨f₃, hasks₁.trans (hasks₂.trans hasks₃), hlike₃⟩

/-- While the process waits, the run may be cancelled, and the listener has its turns. -/
theorem Like.await (h : t.Like f) {r : Run} (ho : r.output.Sent room (old ++ new))
    (hf : f.Told room old new) (hs : r.status.isTerminal = false) (w : Wait) :
    ((world.await w r t).2.1 = r ∨ (world.await w r t).2.1 = r.cancel) ∧
      ∃ f', f.Asks r.output r.status f' ∧ (world.await w r t).2.2.Like f' := by
  unfold world
  dsimp only
  split
  · exact ⟨.inl rfl, f, .refl, h⟩
  · next moment x hending =>
    by_cases hturn : w.isTurn = true
    · rw [if_pos hturn]
      refine ⟨?_, h.nextRound ho hf hs⟩
      dsimp only [cancelled]
      split
      · exact .inr rfl
      · exact .inl rfl
    · rw [if_neg hturn]
      cases t.interruption r moment with
      | none => exact ⟨.inl rfl, h.jump ho hf hs moment⟩
      | some c => exact ⟨.inr rfl, h.jump ho hf hs (max c t.now)⟩

theorem heard_eq {l : Listener} (hl : t.listener = some l) :
    t.heard o = (l.turn o t.now).received.reverse := by
  rw [heard, taken, Timeline.listen, hl]
  rfl

end Timeline

/-! ## Processes in the timeline -/

namespace Following

variable {ι : Type} [DecidableEq ι] {m m' m'' : Following ι} {s : Shared ι} {f f' : Flush}

/-- Some events lead from one moment to another. -/
def Leads (m m' : Following ι) : Prop := ∃ es, Trace m es m'

theorem Leads.trans (h : Leads m m') (h' : Leads m' m'') : Leads m m'' := by
  obtain ⟨es, hes⟩ := h
  obtain ⟨es', hes'⟩ := h'
  exact ⟨es ++ es', hes.trans hes'⟩

theorem Happens.leads {event : Event ι} (h : Happens m event m') : Leads m m' :=
  ⟨[event], .snoc .start h⟩

theorem leads_of_asks (h : f.Asks s.run.output s.run.status f') :
    Leads (⟨s, f⟩ : Following ι) ⟨s, f'⟩ := by
  induction h with
  | refl => exact ⟨[], .start⟩
  | step late _ ih => exact (Happens.turn late).leads.trans ih

end Following

section Fresh

open Following (call Leads)

variable {name : String} {options : Run.Options} {config : Config} {values : Entries Value}
  {e : Unit → Engine} {script : Unit → Script} {before : List (Shared.Event Unit)} {s : Shared Unit}
  {es : List (Following.Event Unit)} {m : Following Unit} {t : Timeline}

/-- A run whose execution waits has not ended. -/
theorem Shared.Trace.running (h : Trace (fresh name options config values e script) before s)
    {w : Wait} {next : w.Answer → Process (Except Outcome String)}
    (hwait : s.calls () = .wait w next) : s.run.status.isTerminal = false := by
  have hkeeps := h.keeps ()
  rw [hwait] at hkeeps
  obtain ⟨i, hphase⟩ : ∃ i, phase before () = .executing i := hkeeps.1
  cases h.coupled with
  | unclaimed _ hidle _ => cases (hidle ()).symm.trans hphase
  | claimed _ _ _ hshows _ =>
    rw [Phase.Shows, hphase] at hshows
    rw [(Prod.mk.inj hshows).1]
    rfl

/-- Carrying out what is left of the execution leads to the moment at which it has ended. -/
theorem Timeline.follows {q : Process (Except Outcome String)}
    (h₀ : Shared.Trace (Shared.fresh name options config values e script) before s)
    (h : Following.Trace (call s) es m) (hq : m.shared.calls () = q) (ht : t.Like m.flush) :
    ∃ m', Leads m m' ∧ m'.shared.run = (q.run world m.shared.run t).2.1 ∧
      m'.shared.calls () = .done (q.run world m.shared.run t).1 ∧
      (q.run world m.shared.run t).2.2.Like m'.flush := by
  -- By induction on what is left of the execution. The session serves its listener during waits
  -- only, so the two stay alike across accesses.
  induction q generalizing es m t with
  | done x => exact ⟨m, ⟨[], .start⟩, rfl, hq, ht⟩
  | access c next ih =>
    have hstep := Following.Happens.other (m := m) (.access hq)
    obtain ⟨m', hleads, hend⟩ :=
      ih (c.perform m.shared.run).1 (h.snoc hstep) rfl ht
    exact ⟨m', hstep.leads.trans hleads, hend⟩
  | wait w next ih =>
    obtain ⟨hrun, f', hasks, hlike⟩ :=
      ht.await (h.sent h₀) (h.told h₀) ((h.reached h₀).running hq) w
    have hturns : Leads m ⟨m.shared, f'⟩ := Following.leads_of_asks hasks
    -- At most a cancellation happens to the run while it waits.
    have hmeanwhile : Leads ⟨m.shared, f'⟩
        ⟨⟨(world.await w m.shared.run t).2.1, m.shared.calls⟩, f'⟩ := by
      rcases hrun with hsame | hcancelled
      · rw [hsame]
        exact ⟨[], .start⟩
      · rw [hcancelled]
        exact (Following.Happens.other .cancel).leads
    have hwait := Following.Happens.other
      (m := ⟨⟨(world.await w m.shared.run t).2.1, m.shared.calls⟩, f'⟩)
      (.wait (world.await w m.shared.run t).1 hq)
    obtain ⟨later, hlater⟩ := (hturns.trans hmeanwhile).trans hwait.leads
    obtain ⟨m', hleads, hend⟩ :=
      ih (world.await w m.shared.run t).1 (h.trans hlater) rfl hlike
    exact ⟨m', Leads.trans ⟨later, hlater⟩ hleads, hend⟩

/-- A run whose execution has ended has ended. -/
theorem Shared.Trace.terminal (h : Trace (fresh name options config values e script) before s)
    {result : Except Outcome String} (hdone : s.calls () = .done result) :
    s.run.status.isTerminal = true := by
  by_cases hwon : Won before ()
  · exact (h.result hwon).1.mpr ⟨result, hdone⟩
  · rcases h.others hwon with ⟨-, hnew⟩ | ⟨-, -, _, hwon'⟩
    · cases hnew.symm.trans hdone
    · exact absurd hwon' hwon

end Fresh

namespace Session

open Following (call Leads)

variable (engine : Engine) (name : String) (options : Run.Options) (config : Config)
  (values : Entries Value) (script : Script) (span : Span)

/-- A session with a new run. -/
def fresh : Session := ⟨engine, (Run.create name options config).seed values⟩

/-- A session that streams the output of its run goes through moments of a run that is shared with a
consumer, who is given the same lines and returns. -/
theorem stream_follows :
    let s : Session := fresh engine name options config values
    let start : Shared Unit :=
      Shared.fresh name options config values (fun _ => engine) (fun _ => script)
    let ended := s.carryOut (engine.execute s.run.name script) (s.listened span)
    ∃ m, Leads (call start) m ∧ m.shared.run = (s.stream script span).2.2.run ∧
      m.shared.calls () = .done (s.stream script span).1 ∧
      m.flush.consumed = (s.stream script span).2.1 ∧
      m.flush.stage = .returned m.flush.delivered (ended.2.2.listener.any (·.listening)) := by
  intro s start ended
  -- The consumer subscribes, and is served once before the execution begins.
  have h₀ : Shared.Trace start [] start := .start
  have hcall : Following.Trace (call start) [] (call start) := .start
  have hlistener : Listener.Like { position := s.run.output.subscribe, deadline := span.ticks }
      (call start).flush := ⟨rfl, rfl, rfl⟩
  have hlistened : Timeline.Like
      { listener := some { position := s.run.output.subscribe, deadline := span.ticks } }
      (call start).flush := ⟨_, rfl, hlistener⟩
  obtain ⟨f, hasks, hlike⟩ :=
    hlistened.listen (hcall.sent h₀) (hcall.told h₀) (rfl : Status.created.isTerminal = false)
  obtain ⟨es, hes⟩ := Following.leads_of_asks hasks
  -- Then the execution is carried out to its end.
  obtain ⟨m, hleads, hrun, hdone, l, hl, hm⟩ := Timeline.follows h₀ hes rfl hlike
  obtain ⟨later, hlater⟩ := hleads
  have hmoment := hes.trans hlater
  have hterminal := (hmoment.reached h₀).terminal hdone
  have hheard : (s.stream script span).2.1 =
      (l.turn m.shared.run.output ended.2.2.now).received.reverse := by
    rw [hrun]
    exact Timeline.heard_eq hl
  have hlistening : ended.2.2.listener.any (·.listening) = l.listening :=
    (congrArg (Option.any (·.listening)) hl).trans rfl
  rw [hheard, hlistening]
  cases hgoes : l.listening with
  | true =>
    -- The consumer still listens, and is served for a last time.
    have hstage := hm.stage
    rw [hgoes, if_pos rfl] at hstage
    obtain ⟨f', hasks', hconsumed, hreturned⟩ :=
      Flush.asks_last (hmoment.sent h₀) hterminal hstage
    refine ⟨⟨m.shared, f'⟩, Leads.trans ⟨_, hmoment⟩ (Following.leads_of_asks hasks'), hrun, hdone,
      ?_, hreturned⟩
    rw [Listener.reverse_received_turn hgoes, hm.received, hm.position]
    exact hconsumed
  | false =>
    -- Its time was up earlier, and it was given nothing more since then.
    refine ⟨m, ⟨_, hmoment⟩, hrun, hdone, ?_, ?_⟩
    · rw [Listener.turn, hgoes]
      exact hm.received.symm
    · rw [hm.stage, hgoes]
      rfl

end Session

/-! ## What is delivered -/

namespace Following

open Output (linesOf)

variable {ι : Type} [DecidableEq ι]

/-- What was delivered to a consumer who follows the output of a run, after these events, if so many
lines are kept for it. -/
structure Delivered (room : Nat) (s : Shared ι) (es : List (Event ι)) (m : Following ι) : Prop where
  /-- The delivered lines were printed after the call, in this order. -/
  sublist : m.flush.consumed.Sublist (printed es)
  /-- Those that were printed before the last of them and are not among them are told as gaps. -/
  accounted : m.flush.consumed = linesOf m.flush.received ∧
    ∃ heard, heard <+: printed es ∧ Spells m.flush.received heard
  /-- Their number is given, -/
  counted {delivered : Nat} {ended : Bool} : m.flush.stage = .returned delivered ended →
    delivered = m.flush.consumed.length
  /-- and if it is given because the run has ended, the last lines printed after the call are among
  them, as many as are kept; -/
  last {delivered : Nat} : m.flush.stage = .returned delivered true →
    (printed es).rtake room <:+ m.flush.consumed
  /-- and if the consumer was never further behind, all are. -/
  all {delivered : Nat} : m.flush.stage = .returned delivered true →
    (∀ {es' : List (Event ι)} {m' : Following ι}, es' <+: es → Trace (call s) es' m' →
      m'.behind ≤ room) → m.flush.consumed = printed es
  /-- It is given before the run has ended only if it was time to stop. -/
  early {delivered : Nat} : m.flush.stage = .returned delivered false → .turn true ∈ es
  /-- When the run has ended, it is given after so many more turns. -/
  returns {later : List (Event ι)} {m' : Following ι} : m.shared.run.status.isTerminal = true →
    Trace m later m' → m.behind + 4 ≤ later.countP Event.isTurn →
    ∃ delivered ended, m'.flush.stage = .returned delivered ended

variable {name : String} {options : Run.Options} {config : Config} {values : Entries Value}
  {e : ι → Engine} {script : ι → Script} {before : List (Shared.Event ι)} {s : Shared ι}
  {es : List (Event ι)} {m : Following ι}

/-- A consumer may begin to follow the output of a run at any moment: what is printed from then on
is delivered to it up to the end, whatever happens in whatever order. -/
theorem delivers (h₀ : Shared.Trace (Shared.fresh name options config values e script) before s)
    (h : Trace (call s) es m) : Delivered config.streamRoom s es m := by
  have htold := h.told h₀
  obtain ⟨heard, hspells, hprinted⟩ := htold.spells
  have hheard : heard <+: printed es := ⟨_, hprinted.symm⟩
  exact {
    sublist := by
      rw [htold.consumed]
      exact hspells.sublist.trans hheard.sublist
    accounted := ⟨htold.consumed, heard, hheard, hspells⟩
    counted := fun {_ _} hstage => by
      have hcounted := h.counted
      rwa [Flush.Counted, hstage] at hcounted
    last := fun {_} hstage => htold.rtake_suffix (h.drained h₀ hstage)
    all := fun {_} hstage hkept =>
      htold.consumed_eq (h.drained h₀ hstage) (h.unbroken h₀ hkept)
    early := fun {_} hstage => h.early hstage
    returns := h.returns h₀ }

/-- Two lines are printed before the consumer has a turn, and only the last is kept for it. -/
theorem delivers_late :
    let prints (text : String) : Step := ⟨[("action", .str "print_msg"), ("message", .str text)]⟩
    let config : Config := { streamCapacity := 1 }
    let s : Shared Unit :=
      Shared.fresh "late" {} config [] (fun _ => {}) (fun _ => .steps [prints "1", prints "2"])
    ∃ es m, Trace (call s) es m ∧ Delivered config.streamRoom s es m ∧
      m.flush.stage = .returned m.flush.delivered true ∧ m.flush.consumed = ["2"] := by
  intro prints config s
  obtain ⟨m, ⟨es, hes⟩, -, -, hconsumed, hstage⟩ := Session.stream_follows {} "late" {} config []
    (.steps [prints "1", prints "2"]) ⟨1, 0⟩
  refine ⟨es, m, hes, delivers .start hes, hstage.trans (congrArg _ ?_), hconsumed.trans ?_⟩
  · decide +kernel
  · decide +kernel

end Following

end Stepwise
