import Mathlib.Data.List.Basic
import Stepwise.Proofs.WordArithmetic

/-!
# The size of what is built

The size of a value counts bytes of strings and numbers of items and entries through every nesting
level. Joining adds sizes and repeating multiplies them, so the test before a value is built is a
test of the value itself, and counts that stop at 64 bits do not change it: they only stop far above
the limit.

* `Value.extent`: the size as a whole number without a bound.
* `Expr.min_size`: the size that is counted stops where 64 bits end, and is exact below.
* `Expr.cycled_eq`: taking items round and round comes to whole copies.
* `Expr.built_within_limit`: joining and repeating succeed exactly within the limit.
-/

namespace Stepwise

namespace Value

/-! ## Sizes -/

mutual

/-- Bytes of strings and numbers of items and entries, through every nesting level. -/
def extent : Value → Nat
  | str s => s.utf8ByteSize
  | list items => items.length + itemExtents items
  | dict entries => entries.length + entryExtents entries
  | _ => 0

/-- The sizes of items, added. -/
def itemExtents : List Value → Nat
  | [] => 0
  | v :: vs => v.extent + itemExtents vs

/-- The sizes of entries with their names, added. -/
def entryExtents : List (String × Value) → Nat
  | [] => 0
  | (name, v) :: rest => name.utf8ByteSize + v.extent + entryExtents rest

end

theorem itemExtents_append (as bs : List Value) :
    itemExtents (as ++ bs) = itemExtents as + itemExtents bs := by
  induction as with
  | nil => rw [List.nil_append, itemExtents, Nat.zero_add]
  | cons v vs ih => rw [List.cons_append, itemExtents, itemExtents, ih, Nat.add_assoc]

theorem extent_list_append (as bs : List Value) :
    (list (as ++ bs)).extent = (list as).extent + (list bs).extent := by
  rw [extent, extent, extent, itemExtents_append, List.length_append]
  omega

/-- A string or list with another of its kind behind it. -/
def joined? : Value → Value → Option Value
  | str s, str t => some (str (s ++ t))
  | list as, list bs => some (list (as ++ bs))
  | _, _ => none

/-- So many copies of a string or list, one after the other. -/
def copies? (count : Nat) : Value → Option Value
  | str s => some (str (String.join (List.replicate count s)))
  | list items => some (list (List.replicate count items).flatten)
  | _ => none

variable {x y z : Value}

theorem extent_joined (h : x.joined? y = some z) : z.extent = x.extent + y.extent := by
  unfold joined? at h
  split at h
  · cases h
    exact String.utf8ByteSize_append
  · cases h
    exact extent_list_append _ _
  · cases h

theorem extent_copies {count : Nat} (h : x.copies? count = some z) :
    z.extent = x.extent * count := by
  unfold copies? at h
  split at h
  · rename_i s
    cases h
    show (String.join (List.replicate count s)).utf8ByteSize = s.utf8ByteSize * count
    induction count with
    | zero => rfl
    | succ n ih =>
      rw [List.replicate_succ, String.join_cons, String.utf8ByteSize_append, ih, Nat.mul_succ,
        Nat.add_comm]
  · rename_i items
    cases h
    induction count with
    | zero => rfl
    | succ n ih =>
      rw [List.replicate_succ, List.flatten_cons, extent_list_append, ih, Nat.mul_succ,
        Nat.add_comm]
  · cases h

end Value

namespace Expr

/-! ## Counting -/

mutual

/-- The size is exact, or both sizes are beyond what is counted. -/
theorem min_size : ∀ v : Value, min (size v) maxCount = min v.extent maxCount
  | .str s => rfl
  | .list items => by rw [size, Value.extent, min_sizeItems]
  | .dict entries => by rw [size, Value.extent, min_sizeEntries]
  | .null | .bool _ | .int _ | .float _ => rfl

theorem min_sizeItems (total : Nat) : ∀ items : List Value,
    min (sizeItems total items) maxCount = min (total + Value.itemExtents items) maxCount
  | [] => rfl
  | v :: vs => by
    have hv := min_size v
    rw [sizeItems, min_sizeItems, Value.itemExtents, addCounts]
    omega

theorem min_sizeEntries (total : Nat) : ∀ entries : List (String × Value),
    min (sizeEntries total entries) maxCount = min (total + Value.entryExtents entries) maxCount
  | [] => rfl
  | (name, v) :: rest => by
    have hv := min_size v
    rw [sizeEntries, min_sizeEntries, Value.entryExtents, addCounts, addCounts]
    omega

end

theorem maxSize_lt_maxCount : maxSize < maxCount := by decide

theorem maxSize_lt_addCounts (x y : Value) :
    maxSize < addCounts (size x) (size y) ↔ maxSize < x.extent + y.extent := by
  have hx := min_size x
  have hy := min_size y
  have hmax := maxSize_lt_maxCount
  rw [addCounts]
  omega

theorem maxSize_lt_mulCounts (x : Value) (count : Nat) :
    maxSize < mulCounts (size x) count ↔ maxSize < x.extent * count := by
  have hx := min_size x
  have hmax := maxSize_lt_maxCount
  rw [mulCounts, lt_min_iff, and_iff_left hmax]
  by_cases hsmall : size x < maxCount
  · rw [show size x = x.extent by omega]
  · rcases Nat.eq_zero_or_pos count with rfl | hcount
    · rw [Nat.mul_zero, Nat.mul_zero]
    · have hle (n : Nat) (hn : maxCount ≤ n) : maxSize < n * count :=
        (hmax.trans_le hn).trans_le (Nat.le_mul_of_pos_right n hcount)
      exact iff_of_true (hle _ (by omega)) (hle _ (by omega))

/-! ## Copies -/

theorem filterMap_getElem? (items : List Value) :
    (List.range items.length).filterMap (fun i => items[i]?) = items := by
  induction items with
  | nil => rfl
  | cons v vs ih =>
    rw [List.length_cons, List.range_succ_eq_map, List.filterMap_cons, List.filterMap_map]
    exact congrArg _ ih

/-- Items taken round and round, as many as so many copies have, are the copies. -/
theorem cycled_eq (items : List Value) (count : Nat) :
    cycled items (items.length * count) = (List.replicate count items).flatten := by
  show (List.range (items.length * count)).filterMap (fun i => items.toArray[i % items.length]?) = _
  induction count with
  | zero => rfl
  | succ n ih =>
    have hround : ((List.range items.length).map (items.length * n + ·)).filterMap
        (fun i => items.toArray[i % items.length]?) = items := by
      rw [List.filterMap_map]
      refine (List.filterMap_congr fun i hi => ?_).trans (filterMap_getElem? items)
      rw [Function.comp_apply, Nat.mul_add_mod, Nat.mod_eq_of_lt (List.mem_range.mp hi),
        List.getElem?_toArray]
    rw [Nat.mul_succ, List.range_add, List.filterMap_append, ih, hround, List.replicate_succ',
      List.flatten_append, List.flatten_singleton]

/-! ## Operators -/

variable {x y z v : Value}

/-- What is too long where a string or list is joined with another. -/
def joinedKind : Value → Built
  | .str _ => .joinedString
  | _ => .joinedList

/-- What is too long where a string or list is repeated. -/
def repeatedKind : Value → Built
  | .str _ => .repeatedString
  | _ => .repeatedList

/-- What is built, unless its size is above the limit. -/
def within (what : Built) (size : Nat) (v : Value) : Result :=
  if size ≤ 2 ^ 20 then .ok v else .error (.tooLong what)

/-- The count that is tested may differ from the size where both are above the limit, and so may
what would be built. -/
theorem bounded_eq_within {what : Built} {counted size : Nat} {f : Unit → Value}
    (hcounted : maxSize < counted ↔ maxSize < size) (hf : size ≤ maxSize → f () = v) :
    bounded what counted f = within what size v := by
  have hlimit : maxSize = 2 ^ 20 := rfl
  rw [bounded, within]
  by_cases h : size ≤ 2 ^ 20
  · rw [if_neg (by omega), if_pos h, hf (by omega)]
  · rw [if_pos (by omega), if_neg h]

theorem binary_add_eq (h : x.joined? y = some z) :
    binary .add x y = within (joinedKind x) (x.extent + y.extent) z := by
  unfold Value.joined? at h
  split at h
  · rename_i s t
    cases h
    rw [binary]
    exact bounded_eq_within (maxSize_lt_addCounts _ _) fun _ => rfl
  · rename_i as bs
    cases h
    rw [binary]
    exact bounded_eq_within (maxSize_lt_addCounts _ _) fun _ => rfl
  · cases h

theorem join_replicate_empty (count : Nat) : String.join (List.replicate count "") = "" := by
  induction count with
  | zero => rfl
  | succ n ih => rw [List.replicate_succ, String.join_cons, ih, String.append_empty]

/-- A list has no more items than its size, so their number fits 64 bits where the size is within
the limit. -/
theorem repeated_eq {n : Int64} (hy : Num.ofValue? y = some (.int n))
    (h : x.copies? n.toInt.toNat = some z) :
    repeated x y = within (repeatedKind x) (x.extent * n.toInt.toNat) z := by
  unfold Value.copies? at h
  rw [repeated, hy]
  split at h
  · rename_i s
    cases h
    refine bounded_eq_within (maxSize_lt_mulCounts _ _) fun _ => ?_
    -- An empty text is not copied at all, which comes to the same.
    by_cases hs : s = ""
    · rw [if_pos hs, hs, join_replicate_empty]
    · rw [if_neg hs]
  · rename_i items
    cases h
    refine bounded_eq_within (maxSize_lt_mulCounts _ _) fun hsize => ?_
    have hlength : items.length * n.toInt.toNat ≤ (Value.list items).extent * n.toInt.toNat :=
      Nat.mul_le_mul_right _ (Nat.le_add_right _ _)
    -- So the number of items does not overflow when it is worked out in a word.
    have hlt : items.length * n.toInt.toNat < 2 ^ 64 := by
      have hlimit : maxSize < 2 ^ 64 := by decide
      omega
    rw [Nat.pow_eq, Nat.mod_eq_of_lt hlt, cycled_eq]
  · cases h

theorem exists_copies (h : isSequence x = true) (count : Nat) :
    ∃ z, x.copies? count = some z := by
  cases x with
  | str s => exact ⟨_, rfl⟩
  | list items => exact ⟨_, rfl⟩
  | _ => cases h

theorem isSequence_of_copies {count : Nat} (h : x.copies? count = some z) :
    isSequence x = true := by
  cases x with
  | str s => rfl
  | list items => rfl
  | _ => cases h

theorem binary_mul_eq (x y : Value) : binary .mul x y =
    if isSequence x then repeated x y
    else if isSequence y then repeated y x
    else numeric .mul x y :=
  rfl

/-- Strings and lists that are not joined are not numbers either. -/
theorem binary_add_eq_numeric (h : x.joined? y = none) : binary .add x y = numeric .add x y := by
  cases x <;> cases y <;> first | rfl | cases h

/-- A number is no string and no list. -/
theorem isSequence_of_numeric {op : Arith} (h : numeric op x y = .ok v) : isSequence v = false := by
  rw [numeric] at h
  split at h
  · split at h
    · rename_i z hz
      cases z with
      | int n =>
        cases h
        rfl
      | float d =>
        rw [Num.toValue] at h
        split at h <;> cases h
        rfl
    · cases h
  · cases h

theorem extent_of_within {what : Built} {size : Nat} (hz : z.extent = size)
    (h : within what size z = .ok v) : v.extent ≤ 2 ^ 20 := by
  rw [within] at h
  split at h
  · rename_i hsize
    cases h
    exact hz.le.trans hsize
  · cases h

theorem extent_of_repeated (hx : isSequence x = true) (h : repeated x y = .ok v) :
    v.extent ≤ 2 ^ 20 := by
  cases hy : Num.ofValue? y with
  | none =>
    rw [repeated, hy] at h
    cases h
  | some k =>
    cases k with
    | float d =>
      rw [repeated, hy] at h
      cases h
    | int n =>
      obtain ⟨z, hz⟩ := exists_copies hx n.toInt.toNat
      rw [repeated_eq hy hz] at h
      exact extent_of_within (Value.extent_copies hz) h

/-- What an operator builds is within the limit, whatever its operands are. -/
theorem extent_of_binary {op : Arith} (h : binary op x y = .ok v) (hv : isSequence v = true) :
    v.extent ≤ 2 ^ 20 := by
  -- Numbers are no sequences; only `+` and `*` build any.
  have hnumber (h : numeric op x y = .ok v) : v.extent ≤ 2 ^ 20 := by
    rw [isSequence_of_numeric h] at hv
    cases hv
  cases op with
  | add =>
    cases hz : x.joined? y with
    | some z =>
      rw [binary_add_eq hz] at h
      exact extent_of_within (Value.extent_joined hz) h
    | none => exact hnumber (binary_add_eq_numeric hz ▸ h)
  | mul =>
    rw [binary_mul_eq] at h
    cases hx : isSequence x with
    | true => exact extent_of_repeated hx (by rwa [hx] at h)
    | false =>
      rw [hx] at h
      cases hy : isSequence y with
      | true => exact extent_of_repeated hy (by rwa [hy] at h)
      | false => exact hnumber (by rwa [hy] at h)
  | _ => exact hnumber h

/-! ## Evaluation -/

variable {store : Store} {l r : Expr}

theorem exists_of_eval_arith {op : Arith} (h : eval store (.arith op l r) = .ok v) :
    ∃ x y, binary op x y = .ok v := by
  rw [eval] at h
  cases hl : eval store l with
  | error e =>
    rw [hl] at h
    cases h
  | ok x =>
    cases hr : eval store r with
    | error e =>
      rw [hl, hr] at h
      cases h
    | ok y =>
      rw [hl, hr] at h
      refine ⟨x, y, ?_⟩
      change lift (binary op x y) = .ok v at h
      cases hb : binary op x y with
      | error e =>
        rw [hb] at h
        cases h
      | ok w =>
        rw [hb] at h
        cases h
        rfl

/-- Two strings or two lists are joined, and one of them is repeated a word or truth of times from
either side, exactly if the size of what this comes to is within the limit; that size is the sum or
the product of sizes. Otherwise there is an error, and so there is where the kinds differ. No
operator comes to a string or list whose size is above the limit. -/
theorem built_within_limit (store : Store) (l r : Expr) :
    (∀ x y, eval store l = .ok x → eval store r = .ok y →
      (∀ z, x.joined? y = some z →
        z.extent = x.extent + y.extent ∧
        eval store (.arith .add l r) = lift (within (joinedKind x) (x.extent + y.extent) z)) ∧
      (isSequence x = true → isSequence y = true → x.joined? y = none →
        eval store (.arith .add l r) =
          .error (.expression (.eval (.badOperands .add x.typeName y.typeName)))) ∧
      ∀ n z, y.CountsAs n → x.copies? n.toNat = some z →
        z.extent = x.extent * n.toNat ∧
        eval store (.arith .mul l r) = lift (within (repeatedKind x) (x.extent * n.toNat) z) ∧
        eval store (.arith .mul r l) = lift (within (repeatedKind x) (x.extent * n.toNat) z)) ∧
    ∀ op v, eval store (.arith op l r) = .ok v → isSequence v = true → v.extent ≤ 2 ^ 20 := by
  refine ⟨fun x y hl hr => ⟨fun z hz => ?_, fun hx hy hnone => ?_, fun n z hn hz => ?_⟩,
    fun op v h hv => ?_⟩
  · exact ⟨Value.extent_joined hz, by rw [eval_binary hl hr, binary_add_eq hz]⟩
  · rw [eval_binary hl hr, binary_add_eq_numeric hnone]
    cases x with
    | str s => rfl
    | list items => rfl
    | _ => cases hx
  · -- A count stands on either side; it is a word and no sequence, so there is one way to read it.
    obtain ⟨k, rfl, hk⟩ := exists_word hn
    have hx := isSequence_of_copies hz
    refine ⟨Value.extent_copies hz, ?_, ?_⟩
    · rw [eval_binary hl hr, binary_mul_eq, hx, if_pos rfl, repeated_eq hk hz]
    · rw [eval_binary hr hl, binary_mul_eq, isSequence_eq_false hk, hx, if_pos rfl,
        repeated_eq hk hz]
      rfl
  · obtain ⟨x, y, hxy⟩ := exists_of_eval_arith h
    exact extent_of_binary hxy hv

/-- Copies that come to the limit, and one copy more. -/
theorem built_within_limit_brim :
    let x : Value := .list [.str "ab", .list []]
    let full : Value := .list (List.replicate 262144 [.str "ab", .list []]).flatten
    x.extent = 4 ∧ full.extent = 2 ^ 20 ∧
      eval [] (.arith .mul (.lit (.int 262144)) (.lit x)) = .ok full ∧
      eval [] (.arith .mul (.lit x) (.lit (.int 262145))) =
        .error (.expression (.eval (.tooLong .repeatedList))) ∧
      eval [] (.arith .add (.lit full) (.lit (.list [.null]))) =
        .error (.expression (.eval (.tooLong .joinedList))) := by
  intro x full
  have hx : x.extent = 4 := by decide
  have hlit (v : Value) : eval [] (.lit v) = .ok v := by rw [eval]
  have hcopies (n : Int) := (built_within_limit [] (.lit x) (.lit (.int n))).1 _ _ (hlit _) (hlit _)
  obtain ⟨-, -, hcopied⟩ := hcopies 262144
  obtain ⟨hfull, -, hright⟩ := hcopied 262144 full (.int (by decide) (by decide)) rfl
  obtain ⟨-, -, hcopied'⟩ := hcopies 262145
  obtain ⟨-, hleft, -⟩ := hcopied' 262145 _ (.int (by decide) (by decide)) rfl
  obtain ⟨hjoined, -, -⟩ := (built_within_limit [] (.lit full) (.lit (.list [.null]))).1 _ _
    (hlit _) (hlit _)
  obtain ⟨-, hadd⟩ := hjoined _ rfl
  have hsize : full.extent = 2 ^ 20 := by
    rw [hfull, hx]
    rfl
  refine ⟨hx, hsize, ?_, ?_, ?_⟩
  · rw [hright, hx]
    rfl
  · rw [hleft, hx]
    rfl
  · rw [hadd, hsize]
    rfl

end Expr

end Stepwise
