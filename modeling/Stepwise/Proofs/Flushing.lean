import Stepwise.Proofs.Reception
import Stepwise.Run.Flush

/-!
# The questions of a consumer

What a consumer who follows the output of a run knows before it asks a question, it knows after the
answer, whatever was printed in between.

* `Flush.Told`, `Flush.Counted`: what was received, what was delivered and what was counted fit to
  what was printed.
* `Flush.next_cases`: what can be received next.
* `Flush.step_returned`, `Flush.step_early`: when the consumer returns.
* `Flush.Stage.rank`, `Flush.step_rank`: how long the consumer goes on when the run has ended.
-/

namespace Stepwise

namespace Flush

open Received (total)
open Output (linesOf available)

variable {room n : Nat} {old new : List String} {o : Output} {f f' : Flush}

/-! ## What the consumer was told -/

/-- The consumer is told about the new lines, which come after the old ones: what it received tells
the first of them, it stands before the others, and gaps are behind the last lines that are kept. -/
structure Told (room : Nat) (old new : List String) (f : Flush) : Prop where
  position_le : f.position ≤ (old ++ new).length
  spells : ∃ heard, Spells f.received heard ∧ new = heard ++ (old ++ new).drop f.position
  consumed : f.consumed = linesOf f.received
  recent : ∃ (es : List Received) (ls : List String),
    f.received = es ++ ls.map .line ∧ total es ≤ new.length - room

theorem told_call (ho : o.Sent room old) : (call o).Told room old [] := by
  have hsent : (call o).position = (old ++ []).length := by
    rw [List.append_nil]
    exact ho.sent
  exact {
    position_le := hsent.le
    spells := ⟨[], .nil, by rw [hsent, List.drop_length]; rfl⟩
    consumed := rfl
    recent := ⟨[], [], rfl, Nat.zero_le _⟩ }

theorem Told.print (h : f.Told room old new) (more : List String) :
    f.Told room old (new ++ more) where
  position_le := by
    rw [← List.append_assoc, List.length_append]
    exact h.position_le.trans (Nat.le_add_right _ _)
  spells := by
    obtain ⟨heard, hspells, hnew⟩ := h.spells
    refine ⟨heard, hspells, ?_⟩
    rw [← List.append_assoc, List.drop_append_of_le_length h.position_le, ← List.append_assoc,
      ← hnew]
  consumed := h.consumed
  recent := by
    obtain ⟨es, ls, hreceived, hgaps⟩ := h.recent
    refine ⟨es, ls, hreceived, hgaps.trans (Nat.sub_le_sub_right ?_ _)⟩
    rw [List.length_append]
    exact Nat.le_add_right _ _

/-- It receives the next line. -/
theorem Told.line (h : f.Told room old new) {text : String} {rest : List String}
    (hunread : (old ++ new).drop f.position = text :: rest)
    (hposition : f'.position = f.position + 1)
    (hreceived : f'.received = f.received ++ [.line text])
    (hconsumed : f'.consumed = f.consumed ++ [text]) : f'.Told room old new where
  position_le := by
    have hlong := congrArg List.length hunread
    rw [List.length_drop, List.length_cons] at hlong
    omega
  spells := by
    -- The line stands behind what was heard before, and in front of what is still unread.
    obtain ⟨heard, hspells, hnew⟩ := h.spells
    refine ⟨heard ++ [text], hreceived ▸ hspells.append (.line text .nil), ?_⟩
    rw [hposition, ← List.drop_drop, hunread, List.drop_succ_cons, List.drop_zero,
      List.append_assoc, List.singleton_append, ← hunread]
    exact hnew
  consumed := by
    rw [hconsumed, h.consumed, hreceived, Received.linesOf_append]
    rfl
  recent := by
    obtain ⟨es, ls, hes, hgaps⟩ := h.recent
    refine ⟨es, ls ++ [text], ?_, hgaps⟩
    rw [hreceived, hes, List.map_append, List.append_assoc]
    rfl

/-- It receives a gap, up to the lines that are kept. -/
theorem Told.lagged (h : f.Told room old new)
    (hlag : room < ((old ++ new).drop f.position).length)
    (hposition : f'.position = f.position + (((old ++ new).drop f.position).length - room))
    (hreceived : f'.received =
      f.received ++ [.lagged (((old ++ new).drop f.position).length - room)])
    (hconsumed : f'.consumed = f.consumed) : f'.Told room old new := by
  obtain ⟨heard, hspells, hnew⟩ := h.spells
  have hcount := congrArg List.length hnew
  generalize hunread : (old ++ new).drop f.position = unread at *
  have hlong := congrArg List.length hunread
  rw [List.length_append] at hcount
  rw [List.length_drop] at hlong
  have hlost : (unread.take (unread.length - room)).length = unread.length - room :=
    List.length_take_of_le (Nat.sub_le _ _)
  exact {
    position_le := by omega
    spells := by
      -- What was lost was sent between what was heard and what is kept.
      refine ⟨heard ++ unread.take (unread.length - room), ?_, ?_⟩
      · have hgap := hspells.append (.lagged (unread.take (unread.length - room)) .nil)
        rwa [hlost, List.append_nil, ← hreceived] at hgap
      · rw [hposition, ← List.drop_drop, hunread, List.append_assoc, List.take_append_drop]
        exact hnew
    consumed := by
      rw [hconsumed, h.consumed, hreceived, Received.linesOf_append]
      exact (List.append_nil _).symm
    recent := by
      -- Everything so far is older than the lines that are kept.
      refine ⟨f'.received, [], (List.append_nil _).symm, ?_⟩
      rw [hreceived, Received.total_append, hspells.total_eq]
      show heard.length + (unread.length - room + 0) ≤ _
      omega }

/-! ## What a question does -/

/-- What the consumer can receive next depends on the lines that it has not read. -/
theorem next_cases (ho : o.Sent room (old ++ new)) (f : Flush) :
    f.next o = none ∧ (old ++ new).drop f.position = [] ∨
      (∃ text rest, f.next o = some (.line text, f.position + 1) ∧
        (old ++ new).drop f.position = text :: rest ∧
        ((old ++ new).drop f.position).length ≤ room) ∨
      (room < ((old ++ new).drop f.position).length ∧
        f.next o = some (.lagged (((old ++ new).drop f.position).length - room),
          f.position + (((old ++ new).drop f.position).length - room))) := by
  have hnext : f.next o = (available room ((old ++ new).drop f.position)).head?.map
      fun e => (e, f.position + e.count) := by
    rw [next, ho.take]
    cases available room ((old ++ new).drop f.position) with
    | nil => rfl
    | cons e es => rfl
  cases hhead : (available room ((old ++ new).drop f.position)).head? with
  | none =>
    rw [hhead] at hnext
    exact .inl ⟨hnext, Output.available_eq_nil.mp (List.head?_eq_none_iff.mp hhead)⟩
  | some e =>
    rw [hhead] at hnext
    rcases Output.head?_available hhead with ⟨text, rest, hunread, hkept, rfl⟩ | ⟨hlag, rfl⟩
    · exact .inr (.inl ⟨text, rest, hnext, hunread, hkept⟩)
    · exact .inr (.inr ⟨hlag, hnext⟩)

/-- Nothing can be received when all is read, and only then. -/
theorem next_eq_none (ho : o.Sent room (old ++ new)) :
    f.next o = none ↔ (old ++ new).drop f.position = [] := by
  rcases f.next_cases ho with ⟨hnext, hread⟩ | ⟨_, _, hnext, hunread, -⟩ | ⟨hlag, hnext⟩
  · exact iff_of_true hnext hread
  · rw [hnext, hunread]
    exact iff_of_false (Option.some_ne_none _) (List.cons_ne_nil _ _)
  · refine iff_of_false (hnext ▸ Option.some_ne_none _) fun hread => ?_
    rw [hread] at hlag
    exact absurd hlag (Nat.not_lt_zero _)

theorem Told.step (h : f.Told room old new) (ho : o.Sent room (old ++ new)) (status : Status)
    (late : Bool) : (f.step o status late).Told room old new := by
  have hsame (stage : Stage) : Told room old new { f with stage } :=
    ⟨h.position_le, h.spells, h.consumed, h.recent⟩
  unfold Flush.step
  cases f.stage with
  | receiving | draining =>
    rcases f.next_cases ho with ⟨hnext, -⟩ | ⟨text, rest, hnext, hunread, -⟩ | ⟨hlag, hnext⟩
    · rw [hnext]
      exact hsame _
    · rw [hnext]
      exact h.line hunread rfl rfl rfl
    · rw [hnext]
      exact h.lagged hlag rfl rfl rfl
  | asking | timing => exact hsame _
  | returned => exact h

/-- The number that is given, or would be given now. -/
def Stage.total (delivered : Nat) : Stage → Nat
  | draining count => delivered + count
  | returned count _ => count
  | receiving | asking | timing => delivered

/-- As many lines are counted as were delivered. -/
def Counted (f : Flush) : Prop := f.stage.total f.delivered = f.consumed.length

theorem Counted.step (h : f.Counted) (o : Output) (status : Status) (late : Bool) :
    (f.step o status late).Counted := by
  obtain ⟨position, stage, delivered, consumed, received⟩ := f
  have hmore (text : String) : (consumed ++ [text]).length = consumed.length + 1 :=
    List.length_append
  unfold Flush.step
  cases stage with
  | receiving | draining =>
    dsimp only
    split
    · exact (congrArg (· + 1) h).trans (hmore _).symm
    · exact h
    · exact h
  | asking =>
    cases status.isTerminal with
    | true | false => exact h
  | timing =>
    cases late with
    | true | false => exact h
  | returned => exact h

/-- When all is read, the last lines, as many as are kept, were delivered. -/
theorem Told.rtake_suffix (h : f.Told room old new) (hread : (old ++ new).drop f.position = []) :
    new.rtake room <:+ f.consumed := by
  obtain ⟨heard, hspells, hnew⟩ := h.spells
  obtain ⟨es, ls, hreceived, hgaps⟩ := h.recent
  rw [hread, List.append_nil] at hnew
  rw [hreceived, ← hnew] at hspells
  rw [h.consumed, hreceived, Received.linesOf_append, Received.linesOf_lines,
    ← hspells.of_append.lines_eq, List.rtake, ← Nat.add_sub_cancel' hgaps, ← List.drop_drop]
  exact (List.drop_suffix _ _).trans (List.suffix_append _ _)

/-- When all is read and nothing was skipped, all lines were delivered. -/
theorem Told.consumed_eq (h : f.Told room old new) (hread : (old ++ new).drop f.position = [])
    (hreceived : f.received = f.consumed.map .line) : f.consumed = new := by
  obtain ⟨heard, hspells, hnew⟩ := h.spells
  rw [hread, List.append_nil] at hnew
  rw [hreceived, ← hnew] at hspells
  exact hspells.lines_eq.symm

/-- Nothing is skipped as long as the lines that are not read are kept. -/
theorem step_unbroken (ho : o.Sent room (old ++ new))
    (hkept : ((old ++ new).drop f.position).length ≤ room)
    (h : f.received = f.consumed.map .line) (status : Status) (late : Bool) :
    (f.step o status late).received = (f.step o status late).consumed.map .line := by
  unfold Flush.step
  cases f.stage with
  | receiving | draining =>
    rcases f.next_cases ho with ⟨hnext, -⟩ | ⟨text, rest, hnext, -⟩ | ⟨hlag, -⟩
    · rw [hnext]
      exact h
    · rw [hnext]
      show f.received ++ [.line text] = (f.consumed ++ [text]).map .line
      rw [h, List.map_append]
      rfl
    · exact absurd hlag (Nat.not_lt_of_le hkept)
  | asking | timing | returned => exact h

/-- The consumer knows that the run has ended. -/
def Stage.Knows : Stage → Prop
  | draining _ | returned _ true => True
  | receiving | asking | timing | returned _ false => False

theorem step_knows {status : Status} {late : Bool} (h : (f.step o status late).stage.Knows) :
    f.stage.Knows ∨ status.isTerminal = true := by
  obtain ⟨position, stage, delivered, consumed, received⟩ := f
  unfold Flush.step at h
  cases stage with
  | receiving =>
    dsimp only at h
    split at h
    · exact h.elim
    · exact h.elim
    · exact h.elim
  | asking =>
    cases hs : status.isTerminal with
    | true => exact .inr rfl
    | false =>
      rw [hs] at h
      exact h.elim
  | timing =>
    cases late with
    | true | false => exact h.elim
  | draining => exact .inl trivial
  | returned _ ended =>
    cases ended with
    | true => exact .inl trivial
    | false => exact h.elim

/-- It returns after the run has ended only when nothing is left. -/
theorem step_returned {status : Status} {late : Bool}
    (h : (f.step o status late).stage = .returned n true) :
    f.step o status late = f ∨ f.next o = none ∧ (f.step o status late).position = f.position := by
  obtain ⟨position, stage, delivered, consumed, received⟩ := f
  unfold Flush.step at h ⊢
  cases stage with
  -- Only a consumer that drains the channel returns with the run ended.
  | receiving =>
    dsimp only at h
    split at h
    · cases h
    · cases h
    · cases h
  | asking =>
    cases hs : status.isTerminal with
    | true | false =>
      rw [hs] at h
      cases h
  | timing =>
    cases late with
    | true | false => cases h
  | draining =>
    dsimp only at h ⊢
    split at h
    · cases h
    · cases h
    · next hnext =>
      rw [hnext]
      exact .inr ⟨rfl, rfl⟩
  | returned => exact .inl rfl

/-- It returns before the run has ended only when it is time to stop. -/
theorem step_early {status : Status} {late : Bool}
    (h : (f.step o status late).stage = .returned n false) :
    f.stage = .returned n false ∨ late = true := by
  obtain ⟨position, stage, delivered, consumed, received⟩ := f
  unfold Flush.step at h
  cases stage with
  | receiving | draining =>
    dsimp only at h
    split at h
    · cases h
    · cases h
    · cases h
  | asking =>
    cases hs : status.isTerminal with
    | true | false =>
      rw [hs] at h
      cases h
  | timing =>
    cases late with
    | true => exact .inr rfl
    | false => cases h
  | returned => exact .inl h

/-- How many questions it may still ask of a run that has ended, if so many lines are not read. -/
def Stage.rank (unread : Nat) : Stage → Nat
  | timing => unread + 4
  | receiving => unread + 3
  | asking => unread + 2
  | draining _ => unread + 1
  | returned .. => 0

theorem Stage.rank_le (unread : Nat) (stage : Stage) : stage.rank unread ≤ unread + 4 := by
  cases stage with
  | receiving | asking | timing | draining | returned =>
    dsimp only [rank]
    omega

theorem Stage.returned_of_rank (unread : Nat) {stage : Stage} (h : stage.rank unread = 0) :
    ∃ delivered ended, stage = .returned delivered ended := by
  cases stage with
  | returned delivered ended => exact ⟨delivered, ended, rfl⟩
  | receiving | asking | timing | draining => exact absurd h (Nat.succ_ne_zero _)

theorem step_rank (ho : o.Sent room (old ++ new)) (f : Flush) {status : Status}
    (hs : status.isTerminal = true) (late : Bool) :
    (f.step o status late).stage.rank (o.sent - (f.step o status late).position) ≤
      f.stage.rank (o.sent - f.position) - 1 := by
  have hnext := f.next_cases ho
  have hunread : ((old ++ new).drop f.position).length = o.sent - f.position := by
    rw [List.length_drop, ho.sent]
  rw [hunread] at hnext
  obtain ⟨position, stage, delivered, consumed, received⟩ := f
  unfold Flush.step
  cases stage with
  | receiving | draining =>
    -- A line or a gap moves it on; with nothing to receive it goes to the next stage.
    rcases hnext with ⟨hnext, -⟩ | ⟨text, rest, hnext, hline, -⟩ | ⟨hlag, hnext⟩
    · rw [hnext]
      dsimp only [Stage.rank]
      omega
    · rw [hnext]
      rw [hline, List.length_cons] at hunread
      dsimp only [Stage.rank, receive, deliver] at hunread ⊢
      omega
    · rw [hnext]
      dsimp only [Stage.rank, receive] at hlag ⊢
      omega
  | asking =>
    rw [hs]
    exact Nat.le_refl _
  | timing =>
    cases late with
    | true => exact Nat.zero_le _
    | false => exact Nat.le_refl _
  | returned => exact Nat.zero_le _

end Flush

end Stepwise
