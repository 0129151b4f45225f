import Mathlib.Data.List.Forall2
import Mathlib.Data.String.Basic
import Mathlib.Order.Compare
import Stepwise.Proofs.WordArithmetic

/-!
# Comparisons cohere

Equality and order are two functions, each with its own fallback: truths count as integers in both,
lists are equal item by item with this promotion, dictionaries entry by entry without it, and values
of other kinds have no order. On data without doubles the relations still agree with each other.

* `Value.Whole`: data without doubles.
* `Value.LawfulAt`: a relation is an equivalence at a value, with one rule for each kind of value;
  `same_lawfulAt` and `equalTo_lawfulAt` by induction on the value.
* `Ranked`: what the order of two values is; `Ranked.order_eq` and `ranked_of_order`.
* `Coherent`: the answers to comparisons of two values fit together.
* `comparisons_cohere`: both on the values a script works on, so long as no doubles are among them.
-/

namespace Stepwise

namespace Value

/-- Data without doubles: integers have 64 bits, and no name stands twice in a dictionary, which is
what storing under a name keeps (`Entries.nodup_insert`). -/
inductive Whole : Value → Prop
  | null : Whole .null
  | bool (b : Bool) : Whole (.bool b)
  | int {n : Int} (hlow : -2 ^ 63 ≤ n) (hhigh : n < 2 ^ 63) : Whole (.int n)
  | str (s : String) : Whole (.str s)
  | list {items : List Value} (h : ∀ v ∈ items, Whole v) : Whole (.list items)
  | dict {entries : Entries Value} (hnames : entries.names.Nodup)
      (h : ∀ entry ∈ entries, Whole entry.2) : Whole (.dict entries)

/-! ## Equivalence at a value -/

/-- Among whole values, the relation is an equivalence at `a`. -/
structure LawfulAt (r : Value → Value → Bool) (a : Value) : Prop where
  refl : r a a = true
  symm : ∀ {b}, b.Whole → r a b = true → r b a = true
  trans : ∀ {b c}, b.Whole → c.Whole → r a b = true → r b c = true → r a c = true

/-- Entries that stand among the others with the same data. -/
def Matched (es fs : Entries Value) : Prop :=
  es.length = fs.length ∧
    ∀ entry ∈ es, ∃ w, fs.get? entry.1 = some w ∧ entry.2.same w = true

theorem Matched.names_subset {es fs : Entries Value} (h : Matched es fs) :
    es.names ⊆ fs.names := by
  intro name hname
  obtain ⟨entry, hentry, rfl⟩ := List.mem_map.mp hname
  obtain ⟨w, hw, -⟩ := h.2 entry hentry
  rw [← Entries.contains_iff, Entries.contains, hw]
  rfl

/-- There are as many names on the other side, so none of them is missing. -/
theorem Matched.names_perm {es fs : Entries Value} (h : Matched es fs) (hes : es.names.Nodup) :
    es.names.Perm fs.names := by
  refine (List.subperm_of_subset hes h.names_subset).perm_of_length_le ?_
  rw [Entries.names, Entries.names, List.length_map, List.length_map, h.1]

namespace LawfulAt

variable {r : Value → Value → Bool} {a : Value} {items : List Value} {entries : Entries Value}

/-- The values that are related to `a` are those of a class, and so for each value in the class. -/
theorem ofClass (C : Value → Prop) (ha : C a)
    (h : ∀ x, C x → ∀ b, b.Whole → (r x b = true ↔ C b)) (hwhole : a.Whole) : LawfulAt r a where
  refl := (h a ha a hwhole).mpr ha
  symm hb hab := (h _ ((h a ha _ hb).mp hab) a hwhole).mpr ha
  trans hb hc hab hbc := (h a ha _ hc).mpr ((h _ ((h a ha _ hb).mp hab) _ hc).mp hbc)

/-- Nothing but `a` itself is related to `a`. -/
theorem ofEq (ha : a.Whole) (hself : r a a = true) (h : ∀ b, r a b = true → a = b) :
    LawfulAt r a :=
  ofClass (a = ·) rfl (fun _ hx b _ => hx ▸ ⟨h b, fun hb => hb ▸ hself⟩) ha

theorem forall₂_symm (hitems : ∀ v ∈ items, LawfulAt r v) {others : List Value}
    (hothers : ∀ v ∈ others, v.Whole) (h : List.Forall₂ (r · · = true) items others) :
    List.Forall₂ (r · · = true) others items := by
  induction h with
  | nil => exact .nil
  | cons hab _ ih =>
    rw [List.forall_mem_cons] at hitems hothers
    exact .cons (hitems.1.symm hothers.1 hab) (ih hitems.2 hothers.2)

theorem forall₂_trans (hitems : ∀ v ∈ items, LawfulAt r v) {bs cs : List Value}
    (hbs : ∀ v ∈ bs, v.Whole) (hcs : ∀ v ∈ cs, v.Whole)
    (h : List.Forall₂ (r · · = true) items bs) (h' : List.Forall₂ (r · · = true) bs cs) :
    List.Forall₂ (r · · = true) items cs := by
  induction h generalizing cs with
  | nil => exact h'
  | cons hab _ ih =>
    obtain ⟨c, cs, hbc, hrest, rfl⟩ := List.forall₂_cons_left_iff.mp h'
    rw [List.forall_mem_cons] at hitems hbs hcs
    exact .cons (hitems.1.trans hbs.1 hcs.1 hab hbc) (ih hitems.2 hbs.2 hcs.2 hrest)

/-- Lists are related to lists, item by item. -/
theorem list (hr : ∀ as v, r (.list as) v = true ↔
      ∃ bs, v = .list bs ∧ List.Forall₂ (r · · = true) as bs)
    (hitems : ∀ v ∈ items, LawfulAt r v) : LawfulAt r (.list items) where
  refl := (hr _ _).mpr ⟨_, rfl, List.forall₂_same.mpr fun v hv => (hitems v hv).refl⟩
  symm hb hab := by
    obtain ⟨bs, rfl, h⟩ := (hr _ _).mp hab
    cases hb with
    | list hbs => exact (hr _ _).mpr ⟨_, rfl, forall₂_symm hitems hbs h⟩
  trans hb hc hab hbc := by
    obtain ⟨bs, rfl, h⟩ := (hr _ _).mp hab
    obtain ⟨cs, rfl, h'⟩ := (hr _ _).mp hbc
    cases hb with
    | list hbs =>
      cases hc with
      | list hcs => exact (hr _ _).mpr ⟨_, rfl, forall₂_trans hitems hbs hcs h h'⟩

theorem matched_symm (hnames : entries.names.Nodup)
    (hentries : ∀ entry ∈ entries, LawfulAt Value.same entry.2) {others : Entries Value}
    (hothers : others.names.Nodup) (hwhole : ∀ entry ∈ others, entry.2.Whole)
    (h : Matched entries others) : Matched others entries := by
  refine ⟨h.1.symm, ?_⟩
  rintro ⟨name, w⟩ hw
  have hname : name ∈ entries.names :=
    (h.names_perm hnames).mem_iff.mpr (List.mem_map.mpr ⟨_, hw, rfl⟩)
  obtain ⟨⟨_, v⟩, hv, rfl⟩ := List.mem_map.mp hname
  obtain ⟨w', hw', hsame⟩ := h.2 _ hv
  obtain rfl : w' = w := Option.some.inj (hw'.symm.trans (Entries.get?_of_mem hothers hw))
  exact ⟨v, Entries.get?_of_mem hnames hv, (hentries _ hv).symm (hwhole _ hw) hsame⟩

theorem matched_trans (hentries : ∀ entry ∈ entries, LawfulAt Value.same entry.2)
    {fs gs : Entries Value} (hfs : ∀ entry ∈ fs, entry.2.Whole)
    (hgs : ∀ entry ∈ gs, entry.2.Whole) (h : Matched entries fs) (h' : Matched fs gs) :
    Matched entries gs := by
  refine ⟨h.1.trans h'.1, fun entry hentry => ?_⟩
  obtain ⟨v, hv, hsame⟩ := h.2 entry hentry
  have hvmem := Entries.mem_of_get? hv
  obtain ⟨w, hw, hsame'⟩ := h'.2 _ hvmem
  exact ⟨w, hw, (hentries entry hentry).trans (hfs _ hvmem) (hgs _ (Entries.mem_of_get? hw))
    hsame hsame'⟩

/-- Dictionaries are related to dictionaries, entry by entry and as data. -/
theorem dict (hr : ∀ es v, r (.dict es) v = true ↔ ∃ fs, v = .dict fs ∧ Matched es fs)
    (hnames : entries.names.Nodup) (hentries : ∀ entry ∈ entries, LawfulAt Value.same entry.2) :
    LawfulAt r (.dict entries) where
  refl := (hr _ _).mpr ⟨_, rfl, rfl, fun entry hentry =>
    ⟨entry.2, Entries.get?_of_mem hnames hentry, (hentries entry hentry).refl⟩⟩
  symm hb hab := by
    obtain ⟨fs, rfl, h⟩ := (hr _ _).mp hab
    cases hb with
    | dict hfs hwhole => exact (hr _ _).mpr ⟨_, rfl, matched_symm hnames hentries hfs hwhole h⟩
  trans hb hc hab hbc := by
    obtain ⟨fs, rfl, h⟩ := (hr _ _).mp hab
    obtain ⟨gs, rfl, h'⟩ := (hr _ _).mp hbc
    cases hb with
    | dict _ hfs =>
      cases hc with
      | dict _ hgs => exact (hr _ _).mpr ⟨_, rfl, matched_trans hentries hfs hgs h h'⟩

end LawfulAt

/-! ## Equality as data -/

/-- A relation of lists that goes from item to item. -/
theorem forall₂_iff {r : Value → Value → Bool} {rs : List Value → List Value → Bool}
    (nil : rs [] [] = true) (left : ∀ b bs, rs [] (b :: bs) = false)
    (right : ∀ a as, rs (a :: as) [] = false)
    (cons : ∀ a as b bs, rs (a :: as) (b :: bs) = (r a b && rs as bs)) (as bs : List Value) :
    rs as bs = true ↔ List.Forall₂ (r · · = true) as bs := by
  induction as generalizing bs with
  | nil =>
    cases bs with
    | nil => exact iff_of_true nil .nil
    | cons b bs => simp only [left, Bool.false_eq_true, List.forall₂_nil_left_iff, reduceCtorEq]
  | cons a as ih =>
    cases bs with
    | nil => simp only [right, Bool.false_eq_true, List.forall₂_nil_right_iff, reduceCtorEq]
    | cons b bs => rw [cons, Bool.and_eq_true, ih, List.forall₂_cons]

theorem sameItems_iff (as bs : List Value) :
    sameItems as bs = true ↔ List.Forall₂ (same · · = true) as bs :=
  forall₂_iff rfl (fun _ _ => rfl) (fun _ _ => rfl) (fun _ _ _ _ => rfl) as bs

theorem sameEntries_cons (name : String) (v : Value) (rest fs : Entries Value) :
    sameEntries ((name, v) :: rest) fs =
      ((fs.get? name).any v.same && sameEntries rest fs) := by
  rw [sameEntries]
  cases Entries.get? fs name <;> rfl

theorem sameEntries_iff {es fs : Entries Value} :
    sameEntries es fs = true ↔
      ∀ entry ∈ es, ∃ w, fs.get? entry.1 = some w ∧ entry.2.same w = true := by
  induction es with
  | nil => exact iff_of_true rfl (List.forall_mem_nil _)
  | cons entry rest ih =>
    rw [sameEntries_cons, Bool.and_eq_true, Option.any_eq_true, ih, List.forall_mem_cons]

theorem same_list (as : List Value) (v : Value) :
    same (.list as) v = true ↔ ∃ bs, v = .list bs ∧ List.Forall₂ (same · · = true) as bs := by
  cases v with
  | list bs =>
    simp only [list.injEq, exists_eq_left']
    exact sameItems_iff as bs
  | _ =>
    refine iff_of_false Bool.false_ne_true ?_
    rintro ⟨bs, hbs, -⟩
    cases hbs

theorem same_dict (es : Entries Value) (v : Value) :
    same (.dict es) v = true ↔ ∃ fs, v = .dict fs ∧ Matched es fs := by
  cases v with
  | dict fs =>
    simp only [dict.injEq, exists_eq_left']
    show (es.length == fs.length && sameEntries es fs) = true ↔ _
    rw [Bool.and_eq_true, beq_iff_eq, sameEntries_iff]
    rfl
  | _ =>
    refine iff_of_false Bool.false_ne_true ?_
    rintro ⟨fs, hfs, -⟩
    cases hfs

theorem same_lawfulAt {a : Value} (ha : a.Whole) : LawfulAt same a := by
  -- Plain data are equal to themselves only; lists and dictionaries are compared part by part.
  induction ha with
  | null =>
    refine .ofEq .null rfl fun b h => ?_
    cases b with
    | null => rfl
    | _ => cases h
  | bool x =>
    refine .ofEq (.bool x) (beq_self_eq_true x) fun b h => ?_
    cases b with
    | bool y => exact congrArg bool (eq_of_beq h)
    | _ => cases h
  | @int n hlow hhigh =>
    refine .ofEq (.int hlow hhigh) (beq_self_eq_true n) fun b h => ?_
    cases b with
    | int m => exact congrArg int (eq_of_beq h)
    | _ => cases h
  | str s =>
    refine .ofEq (.str s) (beq_self_eq_true s) fun b h => ?_
    cases b with
    | str t => exact congrArg str (eq_of_beq h)
    | _ => cases h
  | list _ ih => exact .list same_list ih
  | dict hnames _ ih => exact .dict same_dict hnames ih

end Value

namespace Expr

open Value (Whole LawfulAt Matched)

variable {a b c : Value} {x y : Int64} {o : Ordering}

/-! ## Equality with promotion -/

theorem ofValue?_whole (h : a.Whole) :
    (∃ x, Num.ofValue? a = some (.int x)) ∨ Num.ofValue? a = none := by
  cases h with
  | bool b => exact .inl ⟨_, rfl⟩
  | @int n hlow hhigh =>
    refine .inl ⟨.ofInt n, ?_⟩
    rw [Num.ofValue?, if_pos (Num.inRange_iff.mpr ⟨hlow, hhigh⟩)]
  | _ => exact .inr rfl

theorem equalTo_numbers {z w : Num} (ha : Num.ofValue? a = some z)
    (hb : Num.ofValue? b = some w) : equalTo a b = z.eq w := by
  rw [equalTo, ha, hb]
  rintro as bs rfl
  cases ha

theorem equalTo_other {z : Num} (ha : Num.ofValue? a = some z) (hb : Num.ofValue? b = none) :
    equalTo a b = a.same b := by
  rw [equalTo, ha, hb]
  rintro as bs rfl
  cases ha

/-- Words are not the same as data of other kinds. -/
theorem same_number (ha : Num.ofValue? a = some (.int x)) (hb : Num.ofValue? b = none) :
    a.same b = false := by
  cases a with
  | bool _ | int _ => cases b <;> first | rfl | cases hb
  | _ => cases ha

/-- A word is equal to no value but those that take part as this word. -/
theorem equalTo_word (ha : Num.ofValue? a = some (.int x)) (hb : b.Whole) :
    equalTo a b = true ↔ Num.ofValue? b = some (.int x) := by
  obtain ⟨y, hy⟩ | hnone := ofValue?_whole hb
  · rw [equalTo_numbers ha hy, hy]
    show (x == y) = true ↔ _
    rw [beq_iff_eq, Option.some.injEq, Num.int.injEq, eq_comm]
  · rw [equalTo_other ha hnone, same_number ha hnone, hnone]
    simp only [Bool.false_eq_true, reduceCtorEq]

theorem itemsEqual_iff (as bs : List Value) :
    itemsEqual as bs = true ↔ List.Forall₂ (equalTo · · = true) as bs :=
  Value.forall₂_iff rfl (fun _ _ => rfl) (fun _ _ => rfl) (fun _ _ _ _ => rfl) as bs

theorem equalTo_list (as : List Value) (v : Value) :
    equalTo (.list as) v = true ↔
      ∃ bs, v = .list bs ∧ List.Forall₂ (equalTo · · = true) as bs := by
  cases v with
  | list bs =>
    simp only [Value.list.injEq, exists_eq_left']
    exact itemsEqual_iff as bs
  | _ =>
    refine iff_of_false Bool.false_ne_true ?_
    rintro ⟨bs, hbs, -⟩
    cases hbs

theorem equalTo_lawfulAt (ha : a.Whole) : LawfulAt equalTo a := by
  -- Words and truths are compared as the words they stand for.
  have hword {a : Value} {x : Int64} (h : Num.ofValue? a = some (.int x)) (ha : a.Whole) :
      LawfulAt equalTo a :=
    .ofClass (Num.ofValue? · = some (.int x)) h (fun _ h _ hb => equalTo_word h hb) ha
  induction ha with
  | null =>
    refine .ofEq .null rfl fun b h => ?_
    cases b with
    | null => rfl
    | _ => cases h
  | bool b => exact hword rfl (.bool b)
  | int hlow hhigh =>
    obtain ⟨x, hx⟩ | hnone := ofValue?_whole (.int hlow hhigh)
    · exact hword hx (.int hlow hhigh)
    · cases hnone
  | str s =>
    refine .ofEq (.str s) (beq_self_eq_true s) fun b h => ?_
    cases b with
    | str t => exact congrArg Value.str (eq_of_beq h)
    | _ => cases h
  | list _ ih => exact .list equalTo_list ih
  | dict hnames h _ =>
    -- No promotion in a dictionary: it is compared as data.
    exact .dict Value.same_dict hnames fun entry hentry => Value.same_lawfulAt (h entry hentry)

theorem equalTo_comm (ha : a.Whole) (hb : b.Whole) : equalTo a b = equalTo b a :=
  Bool.eq_iff_iff.mpr ⟨(equalTo_lawfulAt ha).symm hb, (equalTo_lawfulAt hb).symm ha⟩

/-! ## Order -/

/-- The order of two values that have one: two words, or two texts. -/
inductive Ranked : Value → Value → Ordering → Prop
  | words {a b : Value} {x y : Int64} {o : Ordering} (ha : Num.ofValue? a = some (.int x))
      (hb : Num.ofValue? b = some (.int y)) (h : o.Compares x.toInt y.toInt) : Ranked a b o
  | texts {s t : String} {o : Ordering} (h : o.Compares s t) : Ranked (.str s) (.str t) o

namespace Ranked

theorem swap (h : Ranked a b o) : Ranked b a o.swap := by
  cases h with
  | words ha hb h => exact .words hb ha (Ordering.compares_swap.mpr h)
  | texts h => exact .texts (Ordering.compares_swap.mpr h)

theorem trans (h : Ranked a b .lt) (h' : Ranked b c .lt) : Ranked a c .lt := by
  cases h with
  | words ha hb h =>
    cases h' with
    | words hb' hc h' =>
      cases hb.symm.trans hb'
      exact .words ha hc (Int.lt_trans h h')
    | texts _ => cases hb
  | texts h =>
    cases h' with
    | words hb _ _ => cases hb
    | texts h' => exact .texts (lt_trans h h')

theorem eq_iff (h : Ranked a b o) (hb : b.Whole) : equalTo a b = true ↔ o = .eq := by
  cases h with
  | words ha hb' h =>
    rw [equalTo_word ha hb, hb', Option.some.injEq, Num.int.injEq, h.eq_eq, Int64.toInt_inj,
      eq_comm]
  | @texts s t _ h =>
    show (s == t) = true ↔ _
    rw [beq_iff_eq, h.eq_eq]

end Ranked

theorem order_words (x y : Int64) :
    ∃ o, Num.order (.int x) (.int y) = some o ∧ o.Compares x.toInt y.toInt := by
  refine ⟨_, rfl, ?_⟩
  rcases Int.lt_trichotomy x.toInt y.toInt with h | h | h
  · rw [if_pos (Int64.lt_iff_toInt_lt.mpr h)]
    exact h
  · obtain rfl := Int64.toInt_inj.mp h
    rw [if_neg Int64.lt_irrefl, if_pos rfl]
    rfl
  · rw [if_neg, if_neg]
    · exact h
    · rintro rfl
      omega
    · rw [Int64.lt_iff_toInt_lt]
      omega

theorem textOrder_compares (s t : String) : (textOrder s t).Compares s t := by
  rw [textOrder]
  split_ifs with hlt heq
  · exact hlt
  · exact heq
  · exact lt_of_le_of_ne (not_lt.mp hlt) (Ne.symm heq)

theorem Ranked.order_eq (h : Ranked a b o) : order a b = .ok o := by
  cases h with
  | @words _ _ x y _ ha hb h =>
    obtain ⟨o', ho', h'⟩ := order_words x y
    unfold order
    simp only [ha, hb, ho', h.inj h']
  | texts h => exact congrArg Except.ok ((textOrder_compares _ _).inj h)

theorem ranked_of_order (ha : a.Whole) (hb : b.Whole) (h : order a b = .ok o) : Ranked a b o := by
  unfold order at h
  split at h
  · next z w hz hw =>
    obtain ⟨x, hx⟩ | hnone := ofValue?_whole ha
    · obtain ⟨y, hy⟩ | hnone := ofValue?_whole hb
      · cases hz.symm.trans hx
        cases hw.symm.trans hy
        obtain ⟨o', ho', hc⟩ := order_words x y
        rw [ho'] at h
        cases h
        exact .words hx hy hc
      · cases hnone.symm.trans hw
    · cases hnone.symm.trans hz
  · split at h
    · cases h
      exact .texts (textOrder_compares _ _)
    · cases h

/-- Both ways there is no order, or there are opposite ones. -/
theorem order_cases (ha : a.Whole) (hb : b.Whole) :
    (∃ e e', order a b = .error e ∧ order b a = .error e') ∨
      ∃ o, order a b = .ok o ∧ order b a = .ok o.swap ∧ equalTo a b = (o == .eq) := by
  cases hab : order a b with
  | ok o =>
    have h := ranked_of_order ha hb hab
    refine .inr ⟨o, rfl, h.swap.order_eq, ?_⟩
    rw [Bool.eq_iff_iff, h.eq_iff hb, beq_iff_eq]
  | error e =>
    cases hba : order b a with
    | ok o => cases hab.symm.trans (ranked_of_order hb ha hba).swap.order_eq
    | error e' => exact .inl ⟨e, e', rfl, rfl⟩

/-! ## Comparisons -/

/-- The answer to a comparison, where it has one. -/
def answer? (relation : Relation) (a b : Value) : Option Bool := (related relation a b).toOption

/-- The answers to comparisons of two values fit together. -/
structure Coherent (a b : Value) : Prop where
  eq : answer? .eq a b = some (equalTo a b)
  ne : answer? .ne a b = some (!equalTo a b)
  /-- The order can be asked for both ways or not at all. -/
  both : (answer? .lt a b).isSome = (answer? .lt b a).isSome
  /-- Of less, equal and greater, one holds and the others do not. -/
  one : ∀ {less greater}, answer? .lt a b = some less → answer? .lt b a = some greater →
    [less, equalTo a b, greater].count true = 1
  le : answer? .le a b = (answer? .lt a b).map (· || equalTo a b)
  gt : answer? .gt a b = answer? .lt b a
  ge : answer? .ge a b = answer? .le b a

theorem answers_of_ok (h : order a b = .ok o) :
    answer? .lt a b = some (o == .lt) ∧ answer? .le a b = some (o != .gt) ∧
      answer? .gt a b = some (o == .gt) ∧ answer? .ge a b = some (o != .lt) := by
  simp only [answer?, related, h]
  exact ⟨rfl, rfl, rfl, rfl⟩

theorem answers_of_error {e : EvalFault} (h : order a b = .error e) :
    answer? .lt a b = none ∧ answer? .le a b = none ∧ answer? .gt a b = none ∧
      answer? .ge a b = none := by
  simp only [answer?, related, h]
  exact ⟨rfl, rfl, rfl, rfl⟩

theorem Coherent.of_ok (hab : order a b = .ok o) (hba : order b a = .ok o.swap)
    (heq : equalTo a b = (o == .eq)) : Coherent a b := by
  obtain ⟨hlt, hle, hgt, hge⟩ := answers_of_ok hab
  obtain ⟨hlt', hle', -, -⟩ := answers_of_ok hba
  refine ⟨rfl, rfl, ?_, ?_, ?_, ?_, ?_⟩
  · rw [hlt, hlt']
    rfl
  · intro less greater hless hgreater
    rw [hlt] at hless
    rw [hlt'] at hgreater
    cases hless
    cases hgreater
    rw [heq]
    cases o <;> rfl
  · rw [hle, hlt, heq]
    cases o <;> rfl
  · rw [hgt, hlt']
    cases o <;> rfl
  · rw [hge, hle']
    cases o <;> rfl

theorem Coherent.of_error {e e' : EvalFault} (hab : order a b = .error e)
    (hba : order b a = .error e') : Coherent a b := by
  obtain ⟨hlt, hle, hgt, hge⟩ := answers_of_error hab
  obtain ⟨hlt', hle', -, -⟩ := answers_of_error hba
  refine ⟨rfl, rfl, ?_, ?_, ?_, ?_, ?_⟩
  · rw [hlt, hlt']
  · intro less greater hless
    rw [hlt] at hless
    cases hless
  · rw [hle, hlt]
    rfl
  · rw [hgt, hlt']
  · rw [hge, hle']

theorem coherent (ha : a.Whole) (hb : b.Whole) : Coherent a b := by
  obtain ⟨e, e', hab, hba⟩ | ⟨o, hab, hba, heq⟩ := order_cases ha hb
  · exact .of_error hab hba
  · exact .of_ok hab hba heq

theorem answer?_lt_iff (ha : a.Whole) (hb : b.Whole) :
    answer? .lt a b = some true ↔ Ranked a b .lt := by
  constructor
  · intro h
    cases hab : order a b with
    | ok o =>
      rw [(answers_of_ok hab).1, Option.some.injEq, beq_iff_eq] at h
      exact ranked_of_order ha hb (h ▸ hab)
    | error e =>
      rw [(answers_of_error hab).1] at h
      cases h
  · intro h
    exact (answers_of_ok h.order_eq).1

/-- Among values without doubles, equality is an equivalence, also in nested lists and
dictionaries, and it is what decides whether an item is in a list. There is an order between two
words and between two texts and no other one, so it can be asked for both ways or not at all; where
it can be, one value is less, or they are equal, or the other one is less, and the other relations
are what this makes of them. Being less is transitive. -/
theorem comparisons_cohere {items : List Value} (ha : a.Whole) (hb : b.Whole) (hc : c.Whole)
    (hitems : ∀ v ∈ items, v.Whole) :
    equalTo a a = true ∧
    equalTo a b = equalTo b a ∧
    (equalTo a b = true → equalTo b c = true → equalTo a c = true) ∧
    (∃ found, answer? .isIn a (.list items) = some found ∧
      (found = true ↔ ∃ v ∈ items, equalTo a v = true)) ∧
    (∀ o, order a b = .ok o ↔ Ranked a b o) ∧
    Coherent a b ∧
    (answer? .lt a b = some true → answer? .lt b c = some true → answer? .lt a c = some true) := by
  refine ⟨(equalTo_lawfulAt ha).refl, equalTo_comm ha hb, (equalTo_lawfulAt ha).trans hb hc, ?_,
    fun o => ⟨ranked_of_order ha hb, Ranked.order_eq⟩, coherent ha hb, ?_⟩
  · refine ⟨_, rfl, ?_⟩
    rw [List.any_eq_true]
    refine exists_congr fun v => and_congr_right fun hv => ?_
    rw [equalTo_comm ha (hitems v hv)]
  · rw [answer?_lt_iff ha hb, answer?_lt_iff hb hc, answer?_lt_iff ha hc]
    exact Ranked.trans

/-- A truth is equal to one, also where both stand in a list beside dictionaries that differ in the
order of their entries; and two truths and the number two stand in order. -/
theorem comparisons_cohere_nested :
    let truths : Value := .list [.bool true, .dict [("x", .int 1), ("y", .null)]]
    let ones : Value := .list [.int 1, .dict [("y", .null), ("x", .int 1)]]
    truths.Whole ∧ ones.Whole ∧ equalTo truths ones = true ∧ equalTo ones truths = true ∧
      answer? .isIn truths (.list [.str "x", ones]) = some true ∧
      answer? .le truths ones = none ∧ answer? .ge truths ones = none ∧
      answer? .lt (.bool false) (.bool true) = some true ∧
      answer? .lt (.bool true) (.int 2) = some true ∧
      answer? .lt (.bool false) (.int 2) = some true := by
  intro truths ones
  have hpair {α : Type} {p : α → Prop} {x y : α} (hx : p x) (hy : p y) : ∀ v ∈ [x, y], p v :=
    List.forall_mem_cons.mpr ⟨hx, List.forall_mem_singleton.mpr hy⟩
  have hone : (Value.int 1).Whole := .int (by decide) (by decide)
  have htwo : (Value.int 2).Whole := .int (by decide) (by decide)
  have htruths : truths.Whole :=
    .list (hpair (.bool true) (.dict (by decide) (hpair hone .null)))
  have hones : ones.Whole := .list (hpair hone (.dict (by decide) (hpair .null hone)))
  have hequal : equalTo truths ones = true := by decide
  obtain ⟨-, hcomm, -, ⟨found, hfound, hin⟩, -, hcoherent, -⟩ :=
    comparisons_cohere htruths hones htruths (hpair (.str "x") hones)
  obtain ⟨-, -, -, -, -, -, htrans⟩ :=
    comparisons_cohere (.bool false) (.bool true) htwo (List.forall_mem_nil _)
  obtain rfl : found = true := hin.mpr ⟨ones, by simp, hequal⟩
  have hless : answer? .lt (.bool false) (.bool true) = some true := by decide
  have hless' : answer? .lt (.bool true) (.int 2) = some true := by decide
  refine ⟨htruths, hones, hequal, hcomm.symm.trans hequal, hfound, ?_, ?_, hless, hless',
    htrans hless hless'⟩
  · rw [hcoherent.le]
    rfl
  · rw [hcoherent.ge]
    rfl

end Expr

end Stepwise
