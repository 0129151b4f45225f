import Mathlib.Data.List.DropRight
import Stepwise.Run.Output

/-!
# What a subscriber receives

A subscriber stands somewhere among all the lines ever pushed, and what it can receive depends only
on the lines it has not read yet and on how many lines the output keeps for subscribers.

* `Recent.Holds`: a bounded memory holds the last items pushed into it.
* `Spells`: what was received tells these lines, where a gap tells so many.
* `Output.available`, `Output.Sent.waiting`: what can be received of unread lines.
-/

namespace Stepwise

namespace Recent

variable {α : Type} {r : Recent α} {items : List α}

/-- The memory holds the last of these items, as many as it has room for. -/
def Holds (r : Recent α) (items : List α) : Prop := r.toList = items.rtake r.limit

theorem holds_cleared : r.cleared.Holds [] := by
  rw [Holds, List.rtake_nil]
  rfl

theorem Holds.size (h : r.Holds items) : r.size = min r.limit items.length := by
  rw [size_eq_length, h, List.rtake, List.length_drop]
  omega

theorem Holds.push (h : r.Holds items) (hr : 0 < r.limit) (a : α) :
    (r.push a).Holds (items ++ [a]) := by
  obtain ⟨n, hn⟩ := Nat.exists_eq_succ_of_ne_zero hr.ne'
  rw [Holds, toList_push, limit_push, h.size, h, hn, List.rtake_concat_succ]
  split
  · next hroom =>
    have hall (k : Nat) (hk : items.length ≤ k) : items.rtake k = items := by
      rw [List.rtake, Nat.sub_eq_zero_of_le hk, List.drop_zero]
    rw [hall _ (by omega), hall _ (by omega)]
  · next hfull =>
    have hlong : n + 1 ≤ items.length := by omega
    rw [List.rtake, List.rtake, List.drop_append_of_le_length (by rw [List.length_drop]; omega),
      List.drop_drop]
    congr 2
    omega

end Recent

/-! ## What entries tell -/

namespace Received

/-- How many lines these entries stand for. -/
def total : List Received → Nat
  | [] => 0
  | e :: es => e.count + total es

/-- How many lines are lost to the subscriber by these entries. -/
def lost : List Received → Nat
  | [] => 0
  | line _ :: es => lost es
  | lagged n :: es => n + lost es

variable {es es' : List Received} {e : Received}

theorem total_append : total (es ++ es') = total es + total es' := by
  induction es with
  | nil => exact (Nat.zero_add _).symm
  | cons e es ih => rw [List.cons_append, total, total, ih, Nat.add_assoc]

theorem linesOf_append :
    Output.linesOf (es ++ es') = Output.linesOf es ++ Output.linesOf es' :=
  List.filterMap_append ..

/-- Entries without gaps are their lines. -/
theorem linesOf_lines (ls : List String) : Output.linesOf (ls.map line) = ls := by
  induction ls with
  | nil => rfl
  | cons l ls ih => exact congrArg (l :: ·) ih

/-- A line stands for itself, and a gap for the lines that are lost. -/
theorem total_eq : total es = (Output.linesOf es).length + lost es := by
  induction es with
  | nil => rfl
  | cons e es ih =>
    rw [total, ih]
    cases e with
    | line =>
      show 1 + ((Output.linesOf es).length + lost es) = (Output.linesOf es).length + 1 + lost es
      omega
    | lagged n =>
      show n + ((Output.linesOf es).length + lost es) = (Output.linesOf es).length + (n + lost es)
      omega

/-- Positions go on by what the entries stand for. -/
theorem foldl_count (position : Nat) :
    es.foldl (fun n e => n + e.count) position = position + total es := by
  induction es generalizing position with
  | nil => rfl
  | cons e es ih => rw [List.foldl_cons, ih, total, Nat.add_assoc]

end Received

/-- The entries tell these lines, one after the other, where a gap tells as many as it counts. -/
inductive Spells : List Received → List String → Prop
  | nil : Spells [] []
  | line {es : List Received} {ls : List String} (l : String) : Spells es ls →
      Spells (.line l :: es) (l :: ls)
  | lagged {es : List Received} {ls : List String} (lost : List String) : Spells es ls →
      Spells (.lagged lost.length :: es) (lost ++ ls)

namespace Spells

open Received (total)

variable {es es' : List Received} {ls ls' : List String}

theorem lines (ls : List String) : Spells (ls.map .line) ls := by
  induction ls with
  | nil => exact .nil
  | cons l ls ih => exact ih.line l

theorem append (h : Spells es ls) (h' : Spells es' ls') : Spells (es ++ es') (ls ++ ls') := by
  induction h with
  | nil => exact h'
  | line l _ ih => exact ih.line l
  | lagged lost _ ih =>
    rw [List.append_assoc]
    exact ih.lagged lost

theorem total_eq (h : Spells es ls) : total es = ls.length := by
  induction h with
  | nil => rfl
  | line l _ ih => rw [Received.total, ih, List.length_cons, Nat.add_comm]; rfl
  | lagged lost _ ih => rw [Received.total, ih, List.length_append]; rfl

/-- The first entries tell the first lines. -/
theorem take (h : Spells es ls) (count : Nat) :
    Spells (es.take count) (ls.take (total (es.take count))) := by
  induction h generalizing count with
  | nil =>
    rw [List.take_nil, List.take_nil]
    exact .nil
  | line l _ ih =>
    cases count with
    | zero => exact .nil
    | succ count =>
      rw [List.take_succ_cons, Received.total, Nat.add_comm]
      exact (ih count).line l
  | lagged lost _ ih =>
    cases count with
    | zero => exact .nil
    | succ count =>
      rw [List.take_succ_cons, Received.total]
      show Spells _ ((lost ++ _).take (lost.length + _))
      rw [List.take_length_add_append]
      exact (ih count).lagged lost

/-- What the last entries tell comes after what the first ones do. -/
theorem of_append (h : Spells (es ++ es') ls) :
    Spells es' (ls.drop (total es)) := by
  induction es generalizing ls with
  | nil => exact h
  | cons e es ih =>
    cases h with
    | line l h =>
      rw [Received.total, Nat.add_comm]
      exact ih h
    | lagged lost h =>
      rw [Received.total]
      show Spells es' ((lost ++ _).drop (lost.length + _))
      rw [List.drop_length_add_append]
      exact ih h

/-- Entries without gaps tell their lines. -/
theorem lines_eq (h : Spells (ls.map .line) ls') : ls' = ls := by
  induction ls generalizing ls' with
  | nil =>
    cases h
    rfl
  | cons l ls ih =>
    cases h with
    | line _ h => exact congrArg (l :: ·) (ih h)

/-- The lines that arrived are told in their order. -/
theorem sublist (h : Spells es ls) : (Output.linesOf es).Sublist ls := by
  induction h with
  | nil => exact .slnil
  | line l _ ih => exact ih.cons_cons l
  | lagged lost _ ih => exact ih.trans (List.sublist_append_right lost _)

end Spells

/-! ## What can be received -/

namespace Output

open Received (total)

/-- What a subscriber can receive of the lines it has not read, when the last `room` lines are kept:
those of them that are left, after a gap for the others. -/
def available (room : Nat) (unread : List String) : List Received :=
  if room < unread.length then .lagged (unread.length - room) :: (unread.rtake room).map .line
  else unread.map .line

variable {room : Nat} {unread : List String}

theorem spells_available (room : Nat) (unread : List String) :
    Spells (available room unread) unread := by
  unfold available
  split
  · have hlost : (unread.take (unread.length - room)).length = unread.length - room :=
      List.length_take_of_le (Nat.sub_le _ _)
    have htold := (Spells.lines (unread.rtake room)).lagged (unread.take (unread.length - room))
    rwa [hlost, List.rtake, List.take_append_drop] at htold
  · exact .lines unread

/-- There are never more entries than the lines that are kept and one gap. -/
theorem length_available_le : (available room unread).length ≤ room + 1 := by
  unfold available
  split
  · rw [List.length_cons, List.length_map, List.rtake, List.length_drop]
    omega
  · rw [List.length_map]
    omega

theorem available_eq_nil : available room unread = [] ↔ unread = [] := by
  unfold available
  split
  · next h => exact iff_of_false (List.cons_ne_nil _ _) (by rintro rfl; cases h)
  · rw [List.map_eq_nil_iff]

/-- What comes first is the next line, unless more lines are unread than are kept. -/
theorem head?_available {e : Received} (h : (available room unread).head? = some e) :
    (∃ text rest, unread = text :: rest ∧ unread.length ≤ room ∧ e = .line text) ∨
      room < unread.length ∧ e = .lagged (unread.length - room) := by
  unfold available at h
  split at h
  · next hlag => exact .inr ⟨hlag, (Option.some.inj h).symm⟩
  · next hkept =>
    cases unread with
    | nil => cases h
    | cons text rest =>
      exact .inl ⟨text, rest, rfl, Nat.le_of_not_lt hkept, (Option.some.inj h).symm⟩

/-- All these lines were pushed so far, as subscribers see it, and the last `room` of them are kept
for them. -/
structure Sent (o : Output) (room : Nat) (all : List String) : Prop where
  limit : o.live.limit = room
  room_pos : 0 < room
  live : o.live.Holds all
  sent : o.sent = all.length

theorem room_pos (streamCapacity : Nat) : 0 < (max streamCapacity 1).nextPowerOfTwo :=
  Nat.pos_of_isPowerOfTwo (Nat.isPowerOfTwo_nextPowerOfTwo _)

theorem sent_empty (capacity streamCapacity : Nat) :
    (empty capacity streamCapacity).Sent (max streamCapacity 1).nextPowerOfTwo [] where
  limit := rfl
  room_pos := room_pos streamCapacity
  live := Recent.holds_cleared (r := { limit := (max streamCapacity 1).nextPowerOfTwo })
  sent := rfl

namespace Sent

variable {o : Output} {all : List String}

theorem push (h : o.Sent room all) (line : String) : (o.push line).Sent room (all ++ [line]) where
  limit := (Recent.limit_push _ _).trans h.limit
  room_pos := h.room_pos
  live := h.live.push (h.limit ▸ h.room_pos) line
  sent := by rw [List.length_append]; exact congrArg (· + 1) h.sent

theorem clear (h : o.Sent room all) : o.clear.Sent room all := ⟨h.limit, h.room_pos, h.live, h.sent⟩

theorem oldest (h : o.Sent room all) : o.oldest = all.length - room := by
  rw [Output.oldest, h.sent, h.live.size, h.limit]
  omega

/-- What waits for a subscriber depends on the lines pushed since only. -/
theorem waiting (h : o.Sent room all) {position : Nat} :
    o.waiting position = available room (all.drop position) := by
  have hlive : o.live.toList = all.drop (all.length - room) := h.limit ▸ h.live
  rw [Output.waiting, available, h.oldest, hlive, List.length_drop]
  by_cases hlag : position < all.length - room
  · rw [if_pos hlag, if_pos (by omega), List.rtake, List.length_drop, List.drop_drop,
      show all.length - room - position = all.length - position - room by omega,
      show position + (all.length - position - room) = all.length - room by omega]
  · rw [if_neg hlag, if_neg (by omega), List.drop_drop,
      show all.length - room + (position - (all.length - room)) = position by omega]

/-- What a subscriber receives that takes so many entries. -/
theorem take (h : o.Sent room all) {position count : Nat} :
    o.take position count =
      ((available room (all.drop position)).take count,
        position + total ((available room (all.drop position)).take count)) := by
  rw [Output.take, Received.foldl_count, h.waiting]

/-- What a subscriber receives that takes all there is. -/
theorem takeAll (h : o.Sent room all) {position : Nat} (hp : position ≤ all.length) :
    o.takeAll position =
      (available room (all.drop position),
        position + total (available room (all.drop position))) := by
  rw [Output.takeAll, h.waiting, (spells_available _ _).total_eq, List.length_drop, h.sent,
    Nat.add_sub_cancel' hp]

end Sent

end Output

end Stepwise
