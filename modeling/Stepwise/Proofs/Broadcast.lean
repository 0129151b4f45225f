import Stepwise.Proofs.Reception

/-!
# An output and its subscribers

Lines are pushed to one output, which is cleared now and then, while subscribers come and take what
they can receive, each at its own pace. Readers see the last lines since the output was cleared, and
every subscriber is told about every line pushed since it subscribed, in order, or how many of them
are lost to it.

* `Broadcast.Call`, `Broadcast.perform`: what is done with an output and its subscribers.
* `Broadcast.since`, `Broadcast.view`: the calls that matter to one subscriber.
* `Reader`: a subscriber with a queue of its own, which nobody else touches.
* `Broadcast.Faithful`, `Broadcast.faithful`: what readers and subscribers get for all calls.
-/

namespace Stepwise

/-- What a subscriber receives that takes so many entries or, if no number is given, all there are,
and its position then. -/
def Output.receive (o : Output) (position : Nat) : Option Nat → List Received × Nat
  | some count => o.take position count
  | none => o.takeAll position

/-- A subscriber: where it stands, and what it received so far. -/
structure Subscriber where
  position : Nat
  received : List Received := []

def Subscriber.receive (s : Subscriber) (o : Output) (most : Option Nat) : Subscriber :=
  let (entries, position) := o.receive s.position most
  { position, received := s.received ++ entries }

/-- An output and its subscribers, in the order in which they came. -/
structure Broadcast where
  output : Output
  subscribers : List Subscriber := []

namespace Broadcast

open Received (total)
open Output (linesOf available)

inductive Call where
  | push (line : String)
  | clear
  | subscribe
  /-- The subscriber with this number takes so many entries, or all there are. -/
  | receive (subscriber : Nat) (most : Option Nat)
deriving DecidableEq

def perform (b : Broadcast) : Call → Broadcast
  | .push line => { b with output := b.output.push line }
  | .clear => { b with output := b.output.clear }
  | .subscribe => { b with subscribers := b.subscribers ++ [{ position := b.output.subscribe }] }
  | .receive i most => { b with subscribers := b.subscribers.modify i (·.receive b.output most) }

/-- A new output after these calls. -/
def run (capacity streamCapacity : Nat) (calls : List Call) : Broadcast :=
  calls.foldl perform { output := .empty capacity streamCapacity }

/-! ## What the calls say -/

/-- The lines that are pushed by these calls. -/
def pushed (calls : List Call) : List String :=
  calls.filterMap fun
    | .push line => some line
    | _ => none

/-- The calls that come after the subscriber with this number did. -/
def since : Nat → List Call → List Call
  | _, [] => []
  | 0, .subscribe :: calls => calls
  | i + 1, .subscribe :: calls => since i calls
  | i, _ :: calls => since i calls

/-- The call is of interest to the subscriber with this number. -/
def Call.concerns (i : Nat) : Call → Bool
  | push _ => true
  | receive j _ => j = i
  | clear | subscribe => false

/-- What the subscriber with this number notices of these calls. -/
def view (i : Nat) (calls : List Call) : List Call := (since i calls).filter (·.concerns i)

variable {i : Nat} {calls more : List Call} {call : Call}

theorem pushed_append : pushed (calls ++ more) = pushed calls ++ pushed more :=
  List.filterMap_append ..

theorem pushed_snoc_clear : pushed (calls ++ [.clear]) = pushed calls :=
  pushed_append.trans (List.append_nil _)

theorem pushed_snoc_subscribe : pushed (calls ++ [.subscribe]) = pushed calls :=
  pushed_append.trans (List.append_nil _)

theorem pushed_snoc_receive {most : Option Nat} :
    pushed (calls ++ [.receive i most]) = pushed calls :=
  pushed_append.trans (List.append_nil _)

theorem pushed_view : pushed (view i calls) = pushed (since i calls) := by
  rw [pushed, view, List.filterMap_filter]
  refine List.filterMap_congr fun call _ => ?_
  cases call with
  | push => rfl
  | clear | subscribe | receive => exact ite_self _

theorem since_append (hi : i < calls.count .subscribe) :
    since i (calls ++ more) = since i calls ++ more := by
  induction calls generalizing i with
  | nil => exact absurd hi (Nat.not_lt_zero i)
  | cons call calls ih =>
    cases call with
    | subscribe =>
      cases i with
      | zero => rfl
      | succ i =>
        rw [List.count_cons_self] at hi
        exact ih (Nat.lt_of_succ_lt_succ hi)
    | push | clear | receive => exact ih (by simpa using hi)

theorem since_last : since (calls.count .subscribe) (calls ++ [.subscribe]) = [] := by
  induction calls with
  | nil => rfl
  | cons call calls ih =>
    cases call with
    | subscribe =>
      rw [List.count_cons_self]
      exact ih
    | push | clear | receive =>
      refine (congrArg (since · _) ?_).trans ih
      simp

theorem view_snoc (hi : i < calls.count .subscribe) :
    view i (calls ++ [call]) = view i calls ++ [call].filter (·.concerns i) := by
  rw [view, since_append hi, List.filter_append]
  rfl

end Broadcast

/-! ## A subscriber on its own -/

/-- A subscriber with a queue of its own: the lines it has not read, and what it received so far. -/
structure Reader where
  unread : List String := []
  received : List Received := []

namespace Reader

open Broadcast (Call pushed)
open Received (total)
open Output (available)

/-- The entries that are taken of those that are there. -/
def taken (most : Option Nat) (es : List Received) : List Received :=
  match most with
  | some count => es.take count
  | none => es

/-- What a call does that is of interest to the subscriber, if the last `room` lines are kept. -/
def perform (room : Nat) (r : Reader) : Call → Reader
  | .push line => { r with unread := r.unread ++ [line] }
  | .receive _ most =>
    let entries := taken most (available room r.unread)
    { unread := r.unread.drop (total entries), received := r.received ++ entries }
  | .clear | .subscribe => r

/-- The subscriber after these calls. -/
def run (room : Nat) (calls : List Call) : Reader := calls.foldl (perform room) {}

variable {room : Nat} {most : Option Nat} {es : List Received} {ls : List String}
  {calls : List Call} {r : Reader}

theorem spells_taken (most : Option Nat) (h : Spells es ls) :
    Spells (taken most es) (ls.take (total (taken most es))) := by
  cases most with
  | some count => exact h.take count
  | none =>
    rw [taken, h.total_eq, List.take_length]
    exact h

/-- The lines pushed so far are those that the entries tell, and those that are unread. -/
def Accounts (r : Reader) (ls : List String) : Prop :=
  ∃ heard, Spells r.received heard ∧ ls = heard ++ r.unread

theorem Accounts.perform (h : r.Accounts ls) (call : Call) :
    (r.perform room call).Accounts (ls ++ pushed [call]) := by
  obtain ⟨heard, hspells, rfl⟩ := h
  cases call with
  | push line => exact ⟨heard, hspells, List.append_assoc ..⟩
  | clear | subscribe => exact ⟨heard, hspells, List.append_nil _⟩
  | receive i most =>
    refine ⟨_, hspells.append (spells_taken most (Output.spells_available room r.unread)), ?_⟩
    show heard ++ r.unread ++ [] = heard ++ r.unread.take _ ++ r.unread.drop _
    rw [List.append_nil, List.append_assoc, List.take_append_drop]

theorem run_append (more : List Call) :
    run room (calls ++ more) = more.foldl (perform room) (run room calls) := List.foldl_append ..

theorem run_accounts (room : Nat) (calls : List Call) :
    (run room calls).Accounts (pushed calls) := by
  induction calls using List.reverseRecOn with
  | nil => exact ⟨[], .nil, rfl⟩
  | append_singleton calls call ih =>
    rw [run_append, Broadcast.pushed_append]
    exact ih.perform call

/-- What is unread are the lines pushed after those the entries stand for. -/
theorem Accounts.unread (h : r.Accounts ls) : r.unread = ls.drop (total r.received) := by
  obtain ⟨heard, hspells, rfl⟩ := h
  rw [hspells.total_eq, List.drop_left]

/-- Whoever takes more entries than lines are kept, or all there are, takes all. -/
theorem taken_all (h : ∀ count ∈ most, room < count) :
    taken most (available room ls) = available room ls := by
  cases most with
  | none => rfl
  | some count =>
    exact List.take_of_length_le
      (Output.length_available_le.trans (h count (Option.mem_some_self count)))

end Reader

namespace Subscriber

open Received (total)
open Output (available)

variable {s : Subscriber} {r : Reader} {all : List String} {room : Nat}

/-- The subscriber received the same as a reader of its own queue, and it stands before the lines
that this reader has not read. -/
structure Like (s : Subscriber) (all : List String) (r : Reader) : Prop where
  received : s.received = r.received
  position_le : s.position ≤ all.length
  unread : r.unread = all.drop s.position

theorem like_push (h : s.Like all r) (room : Nat) (line : String) :
    s.Like (all ++ [line]) (r.perform room (.push line)) where
  received := h.received
  position_le := by
    rw [List.length_append]
    exact h.position_le.trans (Nat.le_add_right _ _)
  unread := by
    rw [List.drop_append_of_le_length h.position_le, ← h.unread]
    rfl

/-- What a subscriber takes depends on the lines pushed behind it. -/
theorem receive_eq {o : Output} (ho : o.Sent room all) (hs : s.position ≤ all.length)
    (most : Option Nat) :
    s.receive o most =
      let entries := Reader.taken most (available room (all.drop s.position))
      { position := s.position + total entries, received := s.received ++ entries } := by
  unfold receive
  cases most with
  | some count => rw [Output.receive, ho.take]; rfl
  | none => rw [Output.receive, ho.takeAll hs]; rfl

theorem like_receive (h : s.Like all r) {o : Output} (ho : o.Sent room all) (i : Nat)
    (most : Option Nat) : (s.receive o most).Like all (r.perform room (.receive i most)) := by
  have hspells := Reader.spells_taken most
    (Output.spells_available room (all.drop s.position))
  have hread : total (Reader.taken most (available room (all.drop s.position))) ≤
      all.length - s.position := by
    rw [hspells.total_eq, ← List.length_drop]
    exact List.length_take_le' _ _
  rw [receive_eq ho h.position_le, Reader.perform, h.unread]
  refine ⟨congrArg (· ++ _) h.received, ?_, List.drop_drop⟩
  show s.position + _ ≤ _
  have hposition := h.position_le
  omega

end Subscriber

namespace Broadcast

open Received (total lost)
open Output (linesOf available)

variable {capacity room i : Nat} {calls : List Call} {b : Broadcast} {s : Subscriber}

/-- How the output and its subscribers stand after these calls, if readers see the last `capacity`
lines and the last `room` lines are kept for subscribers. -/
structure Linked (capacity room : Nat) (calls : List Call) (b : Broadcast) : Prop where
  limit : b.output.kept.limit = capacity
  capacity_pos : 0 < capacity
  kept : b.output.kept.Holds (pushed (calls.rtakeWhile (· ≠ .clear)))
  sent : b.output.Sent room (pushed calls)
  subscribed : b.subscribers.length = calls.count .subscribe
  like {i : Nat} {s : Subscriber} : b.subscribers[i]? = some s →
    s.Like (pushed calls) (Reader.run room (view i calls))

theorem Linked.lt_count (h : Linked capacity room calls b) (hs : b.subscribers[i]? = some s) :
    i < calls.count .subscribe :=
  h.subscribed ▸ (List.getElem?_eq_some_iff.mp hs).1

theorem Linked.push (h : Linked capacity room calls b) (line : String) :
    Linked capacity room (calls ++ [.push line]) (b.perform (.push line)) where
  limit := (Recent.limit_push _ _).trans h.limit
  capacity_pos := h.capacity_pos
  kept := by
    rw [List.rtakeWhile_concat_pos _ _ _ (by simp), pushed_append]
    exact h.kept.push (h.limit ▸ h.capacity_pos) line
  sent := by
    rw [pushed_append]
    exact h.sent.push line
  subscribed := by
    rw [List.count_append]
    exact h.subscribed
  like hs := by
    rw [pushed_append, view_snoc (h.lt_count hs), Reader.run_append]
    exact Subscriber.like_push (h.like hs) room line

theorem Linked.clear (h : Linked capacity room calls b) :
    Linked capacity room (calls ++ [.clear]) (b.perform .clear) where
  limit := h.limit
  capacity_pos := h.capacity_pos
  kept := by
    rw [List.rtakeWhile_concat_neg _ _ _ (by simp)]
    exact Recent.holds_cleared
  sent := by
    rw [pushed_snoc_clear]
    exact h.sent.clear
  subscribed := by
    rw [List.count_append]
    exact h.subscribed
  like hs := by
    rw [pushed_snoc_clear, view_snoc (h.lt_count hs), Reader.run_append]
    exact h.like hs

theorem Linked.subscribe (h : Linked capacity room calls b) :
    Linked capacity room (calls ++ [.subscribe]) (b.perform .subscribe) where
  limit := h.limit
  capacity_pos := h.capacity_pos
  kept := by
    rw [List.rtakeWhile_concat_pos _ _ _ (by simp), pushed_snoc_subscribe]
    exact h.kept
  sent := by
    rw [pushed_snoc_subscribe]
    exact h.sent
  subscribed := by
    rw [List.count_append, ← h.subscribed]
    exact List.length_append
  like {i s} hs := by
    rw [pushed_snoc_subscribe]
    -- A subscriber that was there before sees no difference; the new one has nothing to receive.
    rcases Nat.lt_or_ge i b.subscribers.length with hold | hnew
    · rw [view_snoc (h.subscribed ▸ hold), Reader.run_append]
      exact h.like ((List.getElem?_append_left hold).symm.trans hs)
    · have hlast : i < (b.subscribers ++ [_]).length := (List.getElem?_eq_some_iff.mp hs).1
      rw [List.length_append, List.length_singleton] at hlast
      obtain rfl : i = b.subscribers.length := by omega
      obtain rfl : _ = s := Option.some.inj (List.getElem?_concat_length.symm.trans hs)
      rw [h.subscribed, view, since_last]
      refine ⟨rfl, h.sent.sent.le, ?_⟩
      show [] = (pushed calls).drop b.output.sent
      rw [h.sent.sent, List.drop_length]

theorem Linked.receive (h : Linked capacity room calls b) (j : Nat) (most : Option Nat) :
    Linked capacity room (calls ++ [.receive j most]) (b.perform (.receive j most)) where
  limit := h.limit
  capacity_pos := h.capacity_pos
  kept := by
    rw [List.rtakeWhile_concat_pos _ _ _ (by simp), pushed_snoc_receive]
    exact h.kept
  sent := by
    rw [pushed_snoc_receive]
    exact h.sent
  subscribed := by
    rw [List.count_append, ← h.subscribed]
    exact List.length_modify _ _ _
  like {i s} hs := by
    have hmodify : ((b.subscribers[i]?).map
        fun s => if j = i then s.receive b.output most else s) = some s :=
      (List.getElem?_modify ..).symm.trans hs
    obtain ⟨t, ht, rfl⟩ := Option.map_eq_some_iff.mp hmodify
    rw [pushed_snoc_receive, view_snoc (h.lt_count ht), Reader.run_append]
    by_cases hj : j = i
    · subst hj
      rw [if_pos rfl, List.filter_cons_of_pos (by simp [Call.concerns])]
      exact Subscriber.like_receive (h.like ht) h.sent j most
    · rw [if_neg hj, List.filter_cons_of_neg (by simpa [Call.concerns] using hj)]
      exact h.like ht

theorem Linked.perform (h : Linked capacity room calls b) (call : Call) :
    Linked capacity room (calls ++ [call]) (b.perform call) := by
  cases call with
  | push line => exact h.push line
  | clear => exact h.clear
  | subscribe => exact h.subscribe
  | receive i most => exact h.receive i most

theorem run_linked (capacity streamCapacity : Nat) (calls : List Call) :
    Linked (max capacity 1) (max streamCapacity 1).nextPowerOfTwo calls
      (run capacity streamCapacity calls) := by
  induction calls using List.reverseRecOn with
  | nil =>
    exact {
      limit := rfl
      capacity_pos := Nat.le_max_right _ _
      kept := Recent.holds_cleared (r := { limit := max capacity 1 })
      sent := Output.sent_empty capacity streamCapacity
      subscribed := rfl
      like := nofun }
  | append_singleton calls call ih =>
    rw [run, List.foldl_append]
    exact ih.perform call

/-! ## What readers and subscribers get -/

/-- What readers and subscribers get after these calls, if readers see the last `capacity` lines and
the last `room` lines are kept for subscribers. -/
structure Faithful (capacity room : Nat) (calls : List Call) (b : Broadcast) : Prop where
  /-- Readers see the last lines pushed since the output was cleared. -/
  lines : b.output.lines = (pushed (calls.rtakeWhile (· ≠ .clear))).rtake capacity
  /-- There are as many subscribers as came. -/
  subscribed : b.subscribers.length = calls.count .subscribe
  /-- What a subscriber received tells the first lines pushed since it came. -/
  received {i : Nat} {s : Subscriber} : b.subscribers[i]? = some s →
    ∃ heard, heard <+: pushed (since i calls) ∧ Spells s.received heard
  /-- What it receives next tells those that follow, and there is a gap only if more of them than
  are kept are unread; what comes after it are those that are kept. -/
  receives {i : Nat} {s : Subscriber} (most : Option Nat) : b.subscribers[i]? = some s →
    ((b.perform (.receive i most)).subscribers[i]?).map Subscriber.received =
      some (s.received ++ Reader.taken most
        (available room ((pushed (since i calls)).drop (total s.received))))
  /-- When nothing is left for it, the lines it received and those it was told are lost are as many
  as were pushed since it came. -/
  conserved {i : Nat} {s : Subscriber} : b.subscribers[i]? = some s →
    b.output.waiting s.position = [] →
    (linesOf s.received).length + lost s.received = (pushed (since i calls)).length
  /-- Nothing is left for it when it took all there was, or more entries than lines are kept. -/
  exhausted {i : Nat} {s : Subscriber} {most : Option Nat} : b.subscribers[i]? = some s →
    (∀ count ∈ most, room < count) →
    b.output.waiting (s.receive b.output most).position = []
  /-- What it received is what a reader of its own queue would have received: neither other
  subscribers nor those who clear the output matter. -/
  alone {i : Nat} {s : Subscriber} : b.subscribers[i]? = some s →
    s.received = (Reader.run room (view i calls)).received

theorem Linked.unread (h : Linked capacity room calls b) (hs : b.subscribers[i]? = some s) :
    (pushed calls).drop s.position = (pushed (since i calls)).drop (total s.received) := by
  have hreader := (Reader.run_accounts room (view i calls)).unread
  rwa [pushed_view, (h.like hs).unread, ← (h.like hs).received] at hreader

theorem Linked.accounts (h : Linked capacity room calls b) (hs : b.subscribers[i]? = some s) :
    ∃ heard, Spells s.received heard ∧
      pushed (since i calls) = heard ++ (pushed calls).drop s.position := by
  rw [← pushed_view, (h.like hs).received, ← (h.like hs).unread]
  exact Reader.run_accounts room (view i calls)

theorem Linked.waiting_eq_nil (h : Linked capacity room calls b) {position : Nat} :
    b.output.waiting position = [] ↔ (pushed calls).drop position = [] := by
  rw [h.sent.waiting, Output.available_eq_nil]

/-- Whatever is pushed, cleared, subscribed and received, readers and subscribers get what they
should. -/
theorem faithful (capacity streamCapacity : Nat) (calls : List Call) :
    Faithful (max capacity 1) (max streamCapacity 1).nextPowerOfTwo calls
      (run capacity streamCapacity calls) := by
  have h := run_linked capacity streamCapacity calls
  exact {
    lines := h.limit ▸ h.kept
    subscribed := h.subscribed
    received hs := by
      obtain ⟨heard, hspells, hpushed⟩ := h.accounts hs
      exact ⟨heard, ⟨_, hpushed.symm⟩, hspells⟩
    receives {i s} most hs := by
      show (((run capacity streamCapacity calls).subscribers.modify i _)[i]?).map _ = _
      rw [List.getElem?_modify_eq, hs]
      show some (s.receive _ most).received = _
      rw [Subscriber.receive_eq h.sent (h.like hs).position_le, h.unread hs]
    conserved {i s} hs hwaiting := by
      obtain ⟨heard, hspells, hpushed⟩ := h.accounts hs
      rw [← Received.total_eq, hspells.total_eq, hpushed, h.waiting_eq_nil.mp hwaiting,
        List.append_nil]
    exhausted {i s most} hs hmost := by
      have hposition := (h.like hs).position_le
      rw [h.waiting_eq_nil, Subscriber.receive_eq h.sent hposition, Reader.taken_all hmost]
      show (pushed calls).drop (s.position + total _) = []
      rw [(Output.spells_available _ _).total_eq, List.length_drop, Nat.add_sub_cancel' hposition,
        List.drop_length]
    alone hs := (h.like hs).received }

/-- Two lines are lost to a subscriber who may fall four lines behind, and who reads too late. -/
example :
    let calls : List Call := [.push "1", .subscribe, .push "2", .push "3", .push "4", .clear,
      .push "5", .push "6", .push "7", .receive 0 (some 3), .push "8", .receive 0 none]
    let b := run 2 3 calls
    b.output.lines = ["7", "8"] ∧ b.subscribers.map (·.received) =
      [[.lagged 2, .line "4", .line "5", .line "6", .line "7", .line "8"]] := by
  decide +kernel

end Broadcast

end Stepwise
