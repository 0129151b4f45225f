/-!
# The output of a run

Printed lines are kept for readers who ask later and passed on to subscribers. Both memories are
bounded: readers see the last lines since the output was cleared, and a subscriber who falls too far
behind is told how many lines it missed and goes on with the oldest line still there.

* `Recent.toList_push`: what a bounded memory holds after one more item.
* `Output.take`: what a subscriber receives, and where it stands then.
-/

namespace Stepwise

/-- The last items pushed, up to a limit. The oldest ones stand in `old` in their order, and the
newest ones in `new` backwards. -/
structure Recent (α : Type) where
  limit : Nat
  old : List α := []
  new : List α := []
  size : Nat := old.length + new.length
  size_eq : size = old.length + new.length := by rfl

namespace Recent

variable {α : Type}

/-- The items, oldest first. -/
def toList (r : Recent α) : List α := r.old ++ r.new.reverse

/-- Nothing, with the same limit. -/
def cleared (r : Recent α) : Recent α := { limit := r.limit }

/-- Pushes an item, which drives out the oldest one if there is no room. -/
def push (r : Recent α) (a : α) : Recent α :=
  if r.size < r.limit then
    { limit := r.limit, old := r.old, new := a :: r.new, size := r.size + 1,
      size_eq := by rw [r.size_eq, List.length_cons]; omega }
  else
    match h : r.old with
    | _ :: old =>
      { limit := r.limit, old, new := a :: r.new, size := r.size,
        size_eq := by rw [r.size_eq, h]; simp only [List.length_cons]; omega }
    | [] =>
      { limit := r.limit, old := (a :: r.new).reverse.drop 1, size := r.size,
        size_eq := by rw [r.size_eq, h]; simp }

theorem size_eq_length (r : Recent α) : r.size = r.toList.length := by
  rw [r.size_eq, toList, List.length_append, List.length_reverse]

theorem limit_push (r : Recent α) (a : α) : (r.push a).limit = r.limit := by
  unfold push; split
  · rfl
  · split <;> rfl

theorem toList_push (r : Recent α) (a : α) :
    (r.push a).toList =
      if r.size < r.limit then r.toList ++ [a] else (r.toList ++ [a]).drop 1 := by
  unfold push; split
  · simp [toList]
  · split
    · next h => simp [toList, h]
    · next h => simp [toList, h]

end Recent

/-- The output of a run. -/
structure Output where
  /-- The lines readers see. -/
  kept : Recent String
  /-- The lines subscribers can still receive. -/
  live : Recent String
  /-- How many lines were ever pushed. -/
  sent : Nat := 0

/-- What a subscriber receives. -/
inductive Received where
  | line (text : String)
  /-- So many lines are lost to it. -/
  | lagged (count : Nat)
deriving Repr, DecidableEq

/-- How many lines an entry stands for. -/
def Received.count : Received → Nat
  | line _ => 1
  | lagged n => n

namespace Output

/-- An empty output. Both capacities are at least one line, and that for subscribers is a power of
two. -/
def empty (capacity streamCapacity : Nat) : Output where
  kept := { limit := max capacity 1 }
  live := { limit := (max streamCapacity 1).nextPowerOfTwo }

/-- Pushes a line. -/
def push (o : Output) (line : String) : Output :=
  { kept := o.kept.push line, live := o.live.push line, sent := o.sent + 1 }

/-- The lines readers see, oldest first. -/
def lines (o : Output) : List String := o.kept.toList

/-- The number of lines readers see. -/
def size (o : Output) : Nat := o.kept.size

/-- Forgets the lines for readers; subscribers still receive theirs. -/
def clear (o : Output) : Output := { o with kept := o.kept.cleared }

/-- A new subscriber stands behind all lines pushed so far. -/
def subscribe (o : Output) : Nat := o.sent

/-- How many lines were pushed before the oldest one that can still be received. -/
def oldest (o : Output) : Nat := o.sent - o.live.size

/-- All that a subscriber at this position can receive. -/
def waiting (o : Output) (position : Nat) : List Received :=
  if position < o.oldest then .lagged (o.oldest - position) :: o.live.toList.map .line
  else (o.live.toList.drop (position - o.oldest)).map .line

/-- What a subscriber receives when it takes so many entries, and its position then. -/
def take (o : Output) (position count : Nat) : List Received × Nat :=
  let entries := (o.waiting position).take count
  (entries, entries.foldl (fun n e => n + e.count) position)

/-- Takes all there is. -/
def takeAll (o : Output) (position : Nat) : List Received × Nat :=
  (o.waiting position, o.sent)

/-- The lines among what was received. -/
def linesOf (entries : List Received) : List String :=
  entries.filterMap fun
    | .line text => some text
    | .lagged _ => none

end Output

end Stepwise
