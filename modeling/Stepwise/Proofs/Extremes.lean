import Stepwise.Proofs.Coherence
import Stepwise.Proofs.Except

/-!
# The least and the greatest value

`min` and `max` go through the values once, and compare each value with nothing but the best one so
far. Integers and truths are ordered by what they count as, and texts by their characters, so the
best one so far stands in order to all values before it. Values of other kinds, or of both kinds,
have no order, and the loop comes to two of them that it has to compare.

* `Value.Signed`, `AtMost`: the values in question and the order among them; `SameKind`: between
  which values there is one.
* `FirstOf`: the first value that is best; `FirstOf.kept` and `FirstOf.beaten`: what one comparison
  makes of the best one so far.
* `FirstOf.foldlM`: what the loop comes to where all values are ordered; `foldlM_kind`: it goes over
  values of one kind only.
* `extremes_of_values`: both functions, in whichever way the values are passed.
-/

namespace Stepwise

/-- No number, or an integer that has 64 bits with its sign. -/
def Value.Signed : Value → Prop
  | .int n => -2 ^ 63 ≤ n ∧ n < 2 ^ 63
  | .float _ => False
  | _ => True

theorem Value.CountsAs.unique {a : Value} {m n : Int} (hm : a.CountsAs m) (hn : a.CountsAs n) :
    m = n := by
  cases hm with
  | int => cases hn; rfl
  | bool b => cases hn; rfl

namespace Expr

variable {a b c m : Value} {vs seen rest : List Value} {o wanted : Ordering}

/-! ## The order of values -/

/-- The value is an integer or a truth. -/
def IsCount (v : Value) : Prop := ∃ n, v.CountsAs n

/-- The value is a text. -/
def IsText (v : Value) : Prop := ∃ s, v = .str s

/-- The first value is not above the second one: integers and truths by what they count as, texts by
their characters. -/
inductive AtMost : Value → Value → Prop
  | counts {a b : Value} {m n : Int} (ha : a.CountsAs m) (hb : b.CountsAs n) (h : m ≤ n) :
      AtMost a b
  | texts {s t : String} (h : s ≤ t) : AtMost (.str s) (.str t)

/-- Both values are integers or truths, or both are texts. -/
def SameKind (a b : Value) : Prop := IsCount a ∧ IsCount b ∨ IsText a ∧ IsText b

theorem not_isText_of_isCount (h : IsCount a) : ¬IsText a := by
  obtain ⟨n, hn⟩ := h
  rintro ⟨s, rfl⟩
  cases hn

namespace SameKind

theorem symm (h : SameKind a b) : SameKind b a := h.imp And.symm And.symm

theorem isCount_iff (h : SameKind a b) : IsCount a ↔ IsCount b := by
  obtain ⟨ha, hb⟩ | ⟨ha, hb⟩ := h
  · exact iff_of_true ha hb
  · exact iff_of_false (fun h => not_isText_of_isCount h ha) fun h => not_isText_of_isCount h hb

theorem isText_iff (h : SameKind a b) : IsText a ↔ IsText b := by
  obtain ⟨ha, hb⟩ | ⟨ha, hb⟩ := h
  · exact iff_of_false (not_isText_of_isCount ha) (not_isText_of_isCount hb)
  · exact iff_of_true ha hb

end SameKind

theorem atMost_counts {m n : Int} (ha : a.CountsAs m) (hb : b.CountsAs n) :
    AtMost a b ↔ m ≤ n := by
  constructor
  · intro h
    cases h with
    | counts ha' hb' h => rwa [ha.unique ha', hb.unique hb']
    | texts h => cases ha
  · exact .counts ha hb

theorem atMost_texts {s t : String} : AtMost (.str s) (.str t) ↔ s ≤ t := by
  constructor
  · intro h
    cases h with
    | counts ha _ _ => cases ha
    | texts h => exact h
  · exact .texts

theorem AtMost.sameKind (h : AtMost a b) : SameKind a b := by
  cases h with
  | counts ha hb _ => exact .inl ⟨⟨_, ha⟩, _, hb⟩
  | texts _ => exact .inr ⟨⟨_, rfl⟩, _, rfl⟩

theorem AtMost.trans (h : AtMost a b) (h' : AtMost b c) : AtMost a c := by
  cases h with
  | counts ha hb h =>
    cases h' with
    | counts hb' hc h' => exact .counts ha hc (h.trans (hb.unique hb' ▸ h'))
    | texts _ => cases hb
  | texts h =>
    cases h' with
    | counts hb _ _ => cases hb
    | texts h' => exact .texts (h.trans h')

/-- What the order of two values tells of them. -/
structure Weighs (a b : Value) (o : Ordering) : Prop where
  le : o ≠ .gt ↔ AtMost a b
  ge : o ≠ .lt ↔ AtMost b a

theorem Weighs.total (h : Weighs a b o) : AtMost a b ∨ AtMost b a := by
  by_cases ho : o = .gt
  · exact .inr (h.ge.mp (by rw [ho]; decide))
  · exact .inl (h.le.mp ho)

/-- Between two integers or truths, and between two texts, there is an order. -/
theorem SameKind.order_weighs (h : SameKind a b) :
    ∃ o, order a b = .ok o ∧ Weighs a b o := by
  obtain ⟨⟨m, ha⟩, n, hb⟩ | ⟨⟨s, rfl⟩, t, rfl⟩ := h
  · obtain ⟨x, rfl, hx⟩ := exists_word ha
    obtain ⟨y, rfl, hy⟩ := exists_word hb
    obtain ⟨o, -, ho⟩ := order_words x y
    refine ⟨o, (Ranked.words hx hy ho).order_eq, ?_, ?_⟩
    · rw [atMost_counts ha hb, ho.ne_gt]
    · rw [atMost_counts hb ha, ho.ne_lt]
  · have ho := textOrder_compares s t
    refine ⟨_, rfl, ?_, ?_⟩
    · rw [atMost_texts, ho.ne_gt]
    · rw [atMost_texts, ho.ne_lt]

theorem ofValue?_signed (h : a.Signed) : IsCount a ∨ Num.ofValue? a = none := by
  cases a with
  | bool b => exact .inl ⟨_, .bool b⟩
  | int n => exact .inl ⟨n, .int h.1 h.2⟩
  | float x => exact h.elim
  | _ => exact .inr rfl

/-- And between no other values. -/
theorem sameKind_of_order (ha : a.Signed) (hb : b.Signed) (h : order a b = .ok o) :
    SameKind a b := by
  unfold order at h
  split at h
  · next x y hx hy =>
    obtain hcount | hnone := ofValue?_signed ha
    · obtain hcount' | hnone := ofValue?_signed hb
      · exact .inl ⟨hcount, hcount'⟩
      · cases hnone.symm.trans hy
    · cases hnone.symm.trans hx
  · split at h
    · exact .inr ⟨⟨_, rfl⟩, _, rfl⟩
    · cases h

theorem order_error {e : EvalFault} (h : order a b = .error e) :
    e = .unorderable a.typeName b.typeName := by
  unfold order at h
  split at h
  · split at h
    · cases h
    · cases h
      rfl
  · split at h
    · cases h
    · cases h
      rfl

/-- The comparisons of a script tell the order of values. -/
theorem related_iff (ha : a.Signed) (hb : b.Signed) :
    (related .le a b = .ok true ↔ AtMost a b) ∧ (related .ge a b = .ok true ↔ AtMost b a) := by
  simp only [related]
  cases horder : order a b with
  | ok o =>
    obtain ⟨o', ho', hweighs⟩ := (sameKind_of_order ha hb horder).order_weighs
    obtain rfl : o = o' := Except.ok.inj (horder.symm.trans ho')
    rw [← hweighs.le, ← hweighs.ge]
    simp [Except.map]
  | error e =>
    have hkind : ¬SameKind a b := by
      intro h
      obtain ⟨o, ho, -⟩ := h.order_weighs
      cases ho.symm.trans horder
    have hle : ¬AtMost a b := fun h => hkind h.sameKind
    have hge : ¬AtMost b a := fun h => hkind h.sameKind.symm
    simp [Except.map, hle, hge]

/-! ## The loop -/

/-- The value is the first one that stands so to all values. -/
def FirstOf (R : Value → Value → Prop) (vs : List Value) (m : Value) : Prop :=
  ∃ before after, vs = before ++ m :: after ∧ (∀ v ∈ vs, R m v) ∧
    ∀ u ∈ before, ¬∀ v ∈ vs, R u v

section

variable {R : Value → Value → Prop} (htrans : ∀ {a b c}, R a b → R b c → R a c)

theorem FirstOf.mem (h : FirstOf R vs m) : m ∈ vs := by
  obtain ⟨before, after, rfl, -, -⟩ := h
  exact List.mem_append_right _ List.mem_cons_self

theorem FirstOf.kept (h : FirstOf R seen m) (hR : R m a) : FirstOf R (seen ++ [a]) m := by
  obtain ⟨before, after, rfl, hm, hbefore⟩ := h
  refine ⟨before, after ++ [a], by simp, ?_, fun u hu hall => hbefore u hu fun v hv => ?_⟩
  · exact List.forall_mem_append.mpr ⟨hm, List.forall_mem_singleton.mpr hR⟩
  · exact hall v (List.mem_append_left _ hv)

include htrans in
theorem FirstOf.beaten (h : FirstOf R seen m) (hR : ¬R m a) (hself : R a a) (hR' : R a m) :
    FirstOf R (seen ++ [a]) a := by
  obtain ⟨-, -, -, hm, -⟩ := h
  refine ⟨seen, [], rfl, ?_, fun u hu hall => hR ?_⟩
  · exact List.forall_mem_append.mpr
      ⟨fun v hv => htrans hR' (hm v hv), List.forall_mem_singleton.mpr hself⟩
  · exact htrans (hm u hu) (hall a (List.mem_append_right _ List.mem_cons_self))

/-- The better one of the best value so far and the next one. -/
def better (wanted : Ordering) (best v : Value) : Result :=
  (order v best).map fun o => if o == wanted then v else best

include htrans in
/-- The loop keeps the first of the best values: what is better than the best one so far is better
than all values before it. -/
theorem FirstOf.foldlM (h : FirstOf R seen m)
    (hR : ∀ a ∈ seen ++ rest, ∀ b ∈ seen ++ rest, R a b ∨ R b a)
    (horder : ∀ a ∈ seen ++ rest, ∀ b ∈ seen ++ rest,
      ∃ o, order a b = .ok o ∧ (o = wanted ↔ ¬R b a)) :
    ∃ m', rest.foldlM (better wanted) m = .ok m' ∧ FirstOf R (seen ++ rest) m' := by
  -- By induction on the values that are left: `m` is the first of the best of those seen.
  induction rest generalizing seen m with
  | nil => exact ⟨m, rfl, (List.append_nil seen).symm ▸ h⟩
  | cons v rest ih =>
    have hv : v ∈ seen ++ v :: rest := List.mem_append_right _ List.mem_cons_self
    have hm : m ∈ seen ++ v :: rest := List.mem_append_left _ h.mem
    obtain ⟨o, ho, hwanted⟩ := horder v hv m hm
    have hself : R v v := (hR v hv v hv).elim id id
    have htotal : R m v ∨ R v m := hR m hm v hv
    have hnext : FirstOf R (seen ++ [v]) (if o == wanted then v else m) := by
      by_cases hbest : R m v
      · rw [if_neg (by rw [beq_iff_eq, hwanted, not_not]; exact hbest)]
        exact h.kept hbest
      · rw [if_pos (by rw [beq_iff_eq, hwanted]; exact hbest)]
        exact h.beaten htrans hbest hself (htotal.resolve_left hbest)
    rw [List.append_cons] at hR horder ⊢
    rw [List.foldlM_cons, better, ho]
    exact ih hnext hR horder

end

variable {best next v : Value}

/-- One of the two compared values goes on. -/
theorem better_eq_ok (h : better wanted best v = .ok next) :
    (∃ o, order v best = .ok o) ∧ (next = best ∨ next = v) := by
  obtain ⟨o, ho, rfl⟩ := Except.map_eq_ok.mp h
  refine ⟨⟨o, ho⟩, ?_⟩
  split
  · exact .inr rfl
  · exact .inl rfl

theorem mem_of_better (rest : List Value) (h : better wanted best v = .ok next) :
    ∀ a ∈ next :: rest, a ∈ best :: v :: rest := by
  obtain ⟨-, rfl | rfl⟩ := better_eq_ok h
  · exact List.forall_mem_cons.mpr ⟨List.mem_cons_self, fun a ha => by simp [ha]⟩
  · exact fun a ha => List.mem_cons_of_mem _ ha

/-- The loop goes over values of one kind only, if what can be compared is of one kind. -/
theorem foldlM_kind {C : Value → Prop}
    (hC : ∀ a ∈ best :: rest, ∀ b ∈ best :: rest, (∃ o, order a b = .ok o) → (C a ↔ C b))
    (h : rest.foldlM (better wanted) best = .ok m) : ∀ v ∈ rest, C v ↔ C best := by
  induction rest generalizing best with
  | nil => exact List.forall_mem_nil _
  | cons v rest ih =>
    rw [List.foldlM_cons] at h
    obtain ⟨next, hnext, h⟩ := Except.bind_eq_ok.mp h
    obtain ⟨horder, hbest⟩ := better_eq_ok hnext
    have hmem := mem_of_better rest hnext
    have hkind : C v ↔ C best :=
      hC v (List.mem_cons_of_mem _ List.mem_cons_self) best List.mem_cons_self horder
    have hsame : C next ↔ C best := by
      rcases hbest with rfl | rfl
      · exact Iff.rfl
      · exact hkind
    refine List.forall_mem_cons.mpr ⟨hkind, fun u hu => ?_⟩
    exact (ih (fun a ha b hb => hC a (hmem a ha) b (hmem b hb)) h u hu).trans hsame

/-- The loop fails at two values that have no order. -/
theorem foldlM_error {e : EvalFault} (h : rest.foldlM (better wanted) best = .error e) :
    ∃ v ∈ best :: rest, ∃ w ∈ best :: rest, e = .unorderable v.typeName w.typeName := by
  induction rest generalizing best with
  | nil => cases h
  | cons v rest ih =>
    rw [List.foldlM_cons] at h
    obtain hfail | ⟨next, hnext, h⟩ := Except.bind_eq_error.mp h
    · exact ⟨v, List.mem_cons_of_mem _ List.mem_cons_self, best, List.mem_cons_self,
        order_error (Except.map_eq_error.mp hfail)⟩
    · have hmem := mem_of_better rest hnext
      obtain ⟨a, ha, b, hb, he⟩ := ih h
      exact ⟨a, hmem a ha, b, hmem b hb, he⟩

/-! ## Both functions -/

theorem extreme_firstOf (R : Value → Value → Prop) (function : String)
    (htrans : ∀ {a b c}, R a b → R b c → R a c) (hne : vs ≠ [])
    (hR : ∀ a ∈ vs, ∀ b ∈ vs, R a b ∨ R b a)
    (horder : ∀ a ∈ vs, ∀ b ∈ vs, ∃ o, order a b = .ok o ∧ (o = wanted ↔ ¬R b a)) :
    ∃ m, extreme function wanted vs = .ok m ∧ FirstOf R vs m := by
  obtain ⟨first, rest, rfl⟩ := List.exists_cons_of_ne_nil hne
  have hself : R first first :=
    (hR first List.mem_cons_self first List.mem_cons_self).elim id id
  have hfirst : FirstOf R [first] first :=
    ⟨[], [], rfl, List.forall_mem_singleton.mpr hself, List.forall_mem_nil _⟩
  have hloop : ∃ m, rest.foldlM (better wanted) first = .ok m ∧ FirstOf R ([first] ++ rest) m :=
    hfirst.foldlM htrans hR horder
  exact hloop

theorem extreme_max (function : String) (hne : vs ≠ [])
    (h : ∀ a ∈ vs, ∀ b ∈ vs, SameKind a b) :
    ∃ m, extreme function .gt vs = .ok m ∧ FirstOf (fun a b => AtMost b a) vs m := by
  refine extreme_firstOf _ function (fun hab hbc => hbc.trans hab) hne (fun a ha b hb => ?_)
    fun a ha b hb => ?_
  · obtain ⟨o, -, ho⟩ := (h b hb a ha).order_weighs
    exact ho.total
  · obtain ⟨o, horder, ho⟩ := (h a ha b hb).order_weighs
    exact ⟨o, horder, by rw [← ho.le, not_not]⟩

theorem extreme_min (function : String) (hne : vs ≠ [])
    (h : ∀ a ∈ vs, ∀ b ∈ vs, SameKind a b) :
    ∃ m, extreme function .lt vs = .ok m ∧ FirstOf AtMost vs m := by
  refine extreme_firstOf _ function (fun hab hbc => hab.trans hbc) hne (fun a ha b hb => ?_)
    fun a ha b hb => ?_
  · obtain ⟨o, -, ho⟩ := (h a ha b hb).order_weighs
    exact ho.total
  · obtain ⟨o, horder, ho⟩ := (h a ha b hb).order_weighs
    exact ⟨o, horder, by rw [← ho.ge, not_not]⟩

/-- Where two values or more are not of one kind that has an order, two of them are compared in
vain. -/
theorem extreme_unordered (function : String) (hsigned : ∀ v ∈ vs, v.Signed)
    (hlength : 2 ≤ vs.length) (hcounts : ¬∀ v ∈ vs, IsCount v) (htexts : ¬∀ v ∈ vs, IsText v) :
    ∃ v ∈ vs, ∃ w ∈ vs,
      extreme function wanted vs = .error (.unorderable v.typeName w.typeName) := by
  obtain ⟨first, rest, rfl⟩ :=
    List.exists_cons_of_length_pos (Nat.lt_of_lt_of_le Nat.two_pos hlength)
  have hextreme : extreme function wanted (first :: rest) =
      rest.foldlM (better wanted) first := rfl
  rw [hextreme]
  cases h : rest.foldlM (better wanted) first with
  -- The loop failed by itself, with the two values it compared.
  | error e =>
    obtain ⟨v, hv, w, hw, rfl⟩ := foldlM_error h
    exact ⟨v, hv, w, hw, rfl⟩
  | ok m =>
    -- It went through, so all values are of the kind of the first one.
    have hkind : ∀ a ∈ first :: rest, ∀ b ∈ first :: rest, (∃ o, order a b = .ok o) →
        SameKind a b :=
      fun a ha b hb ⟨o, ho⟩ => sameKind_of_order (hsigned a ha) (hsigned b hb) ho
    have hcount : ∀ v ∈ rest, IsCount v ↔ IsCount first :=
      foldlM_kind (fun a ha b hb ho => (hkind a ha b hb ho).isCount_iff) h
    have htext : ∀ v ∈ rest, IsText v ↔ IsText first :=
      foldlM_kind (fun a ha b hb ho => (hkind a ha b hb ho).isText_iff) h
    -- The first comparison tells of which kind the first value is.
    obtain ⟨v, rest, rfl⟩ :=
      List.exists_cons_of_length_pos (Nat.lt_of_succ_lt_succ hlength)
    obtain ⟨next, hnext, -⟩ := Except.bind_eq_ok.mp h
    obtain ⟨-, hfirst⟩ | ⟨-, hfirst⟩ :=
      hkind v (by simp) first List.mem_cons_self (better_eq_ok hnext).1
    · exact (hcounts (List.forall_mem_cons.mpr
        ⟨hfirst, fun u hu => (hcount u hu).mpr hfirst⟩)).elim
    · exact (htexts (List.forall_mem_cons.mpr
        ⟨hfirst, fun u hu => (htext u hu).mpr hfirst⟩)).elim

/-- The values are given as one list, or each as an argument of its own. -/
def Passed (vs arguments : List Value) : Prop :=
  arguments = [.list vs] ∨ arguments = vs ∧ 2 ≤ vs.length

theorem Passed.candidates {arguments : List Value} (h : Passed vs arguments) :
    candidates arguments = vs := by
  rcases h with rfl | ⟨rfl, hlength⟩
  · rfl
  · unfold Expr.candidates
    split
    · exact absurd hlength (Nat.not_succ_le_self 1)
    · rfl

theorem FirstOf.congr {R R' : Value → Value → Prop} (h : FirstOf R vs m)
    (hR : ∀ a ∈ vs, ∀ b ∈ vs, R a b ↔ R' a b) : FirstOf R' vs m := by
  have hm := h.mem
  obtain ⟨before, after, hvs, hall, hbefore⟩ := h
  refine ⟨before, after, hvs, fun v hv => (hR m hm v hv).mp (hall v hv), fun u hu h => ?_⟩
  have hmem : u ∈ vs := hvs ▸ List.mem_append_left _ hu
  exact hbefore u hu fun v hv => (hR u hmem v hv).mpr (h v hv)

/-- Of integers and truths, and of texts, `max` gives the first one that is not below any of them
and `min` the first one that is not above any, whether they are passed as one list or one by one.
Two values or more that are not all of one of these kinds make both functions fail, wherever the
one stands that does not fit. -/
theorem extremes_of_values {arguments : List Value} (hne : vs ≠ [])
    (hsigned : ∀ v ∈ vs, v.Signed) (hpassed : Passed vs arguments) :
    ((∀ v ∈ vs, IsCount v) ∨ (∀ v ∈ vs, IsText v) →
      (∃ m, apply "max" arguments = .ok m ∧ FirstOf (related .ge · · = .ok true) vs m) ∧
      ∃ m, apply "min" arguments = .ok m ∧ FirstOf (related .le · · = .ok true) vs m) ∧
    (2 ≤ vs.length → (¬∀ v ∈ vs, IsCount v) → (¬∀ v ∈ vs, IsText v) →
      ∀ function ∈ ["max", "min"], ∃ v ∈ vs, ∃ w ∈ vs,
        apply function arguments = .error (.unorderable v.typeName w.typeName)) ∧
    ∀ a ∈ vs, ∀ b ∈ vs, (related .ge a b = .ok true ↔ AtMost b a) ∧
      (related .le a b = .ok true ↔ AtMost a b) := by
  have hmax : apply "max" arguments = extreme "max" .gt vs := by
    rw [← hpassed.candidates]
    rfl
  have hmin : apply "min" arguments = extreme "min" .lt vs := by
    rw [← hpassed.candidates]
    rfl
  have hrelated : ∀ a ∈ vs, ∀ b ∈ vs, (related .ge a b = .ok true ↔ AtMost b a) ∧
      (related .le a b = .ok true ↔ AtMost a b) :=
    fun a ha b hb => (related_iff (hsigned a ha) (hsigned b hb)).symm
  refine ⟨fun hkind => ?_, fun hlength hcounts htexts function hfunction => ?_, hrelated⟩
  · have hsame : ∀ a ∈ vs, ∀ b ∈ vs, SameKind a b := fun a ha b hb =>
      hkind.imp (fun h => ⟨h a ha, h b hb⟩) fun h => ⟨h a ha, h b hb⟩
    rw [hmax, hmin]
    constructor
    · obtain ⟨m, hm, hfirst⟩ := extreme_max "max" hne hsame
      exact ⟨m, hm, hfirst.congr fun a ha b hb => (hrelated a ha b hb).1.symm⟩
    · obtain ⟨m, hm, hfirst⟩ := extreme_min "min" hne hsame
      exact ⟨m, hm, hfirst.congr fun a ha b hb => (hrelated a ha b hb).2.symm⟩
  · simp only [List.mem_cons, List.not_mem_nil, or_false] at hfunction
    rcases hfunction with rfl | rfl
    · rw [hmax]
      exact extreme_unordered "max" hsigned hlength hcounts htexts
    · rw [hmin]
      exact extreme_unordered "min" hsigned hlength hcounts htexts

/-- Passed one by one, a truth that is level with the integer behind it; and in a list, a text
behind two integers. -/
theorem extremes_of_values_level :
    let level : List Value := [.int 0, .bool true, .int 1]
    let odd : List Value := [.int 2, .int 1, .str "0"]
    (∀ v ∈ level, v.Signed) ∧ Passed level level ∧ (∀ v ∈ level, IsCount v) ∧
      apply "max" level = .ok (.bool true) ∧
      FirstOf (related .ge · · = .ok true) level (.bool true) ∧
      apply "min" level = .ok (.int 0) ∧
      FirstOf (related .le · · = .ok true) level (.int 0) ∧
      (∀ v ∈ odd, v.Signed) ∧ Passed odd [.list odd] ∧
      (¬∀ v ∈ odd, IsCount v) ∧ (¬∀ v ∈ odd, IsText v) ∧
      ∃ v ∈ odd, ∃ w ∈ odd,
        apply "min" [.list odd] = .error (.unorderable v.typeName w.typeName) := by
  intro level odd
  have hsigned : ∀ v ∈ level, v.Signed := by simp [level, Value.Signed]
  have hpassed : Passed level level := .inr ⟨rfl, by decide⟩
  have hcounts : ∀ v ∈ level, IsCount v := by
    simp only [level, List.forall_mem_cons]
    exact ⟨⟨0, .int (by decide) (by decide)⟩, ⟨1, .bool true⟩,
      ⟨1, .int (by decide) (by decide)⟩, List.forall_mem_nil _⟩
  have hsigned' : ∀ v ∈ odd, v.Signed := by simp [odd, Value.Signed]
  have hpassed' : Passed odd [.list odd] := .inl rfl
  have hcounts' : ¬∀ v ∈ odd, IsCount v := fun h =>
    not_isText_of_isCount (h (.str "0") (by simp [odd])) ⟨"0", rfl⟩
  have htexts' : ¬∀ v ∈ odd, IsText v := fun h =>
    not_isText_of_isCount ⟨2, .int (by decide) (by decide)⟩ (h (.int 2) (by simp [odd]))
  obtain ⟨hextremes, -, -⟩ := extremes_of_values (by simp [level]) hsigned hpassed
  obtain ⟨⟨greatest, hmax, hgreatest⟩, least, hmin, hleast⟩ := hextremes (.inl hcounts)
  obtain ⟨-, hfails, -⟩ := extremes_of_values (by simp [odd]) hsigned' hpassed'
  have hfail := hfails (by decide) hcounts' htexts' "min" (by simp)
  have hmax' : apply "max" level = .ok (.bool true) := rfl
  have hmin' : apply "min" level = .ok (.int 0) := rfl
  obtain rfl : greatest = .bool true := Except.ok.inj (hmax.symm.trans hmax')
  obtain rfl : least = .int 0 := Except.ok.inj (hmin.symm.trans hmin')
  exact ⟨hsigned, hpassed, hcounts, hmax, hgreatest, hmin, hleast, hsigned', hpassed', hcounts',
    htexts', hfail⟩

end Expr

end Stepwise
