import Stepwise.Proofs.Ownership
import Stepwise.Proofs.Substitution

/-!
# Merging objects

Sources stand for objects, which are merged from left to right into a new one. Its values follow the
last source that has their name, and its names stand where they came first. So merging is
associative, and the places are part of that: however the sources are put into groups, the result is
the same object with its names in the same order.

* `Entries.extend_extend`: merging is associative.
* `Entries.names_extend`, `Entries.get?_extend_flatten`: the names and the values of what is merged.
* `Engine.merged_eq`: merging sources is merging the objects they stand for.
* `Engine.dispatch_merges`: what a step that merges does, and what it does where a source stands for
  no object.
-/

namespace Stepwise

variable {α τ : Type}

/-! ## Merging entries -/

namespace Entries

theorem insert_insert_self (entries : Entries α) (name : String) (u v : α) :
    (entries.insert name u).insert name v = entries.insert name v := by
  induction entries with
  | nil => exact if_pos rfl
  | cons e rest ih => grind [insert]

theorem mem_names_insert (entries : Entries α) (name : String) (v : α) :
    name ∈ (entries.insert name v).names := by
  rw [← contains_iff, contains, get?_insert, if_pos rfl]
  rfl

/-- Stores under two names may change places once the first one has its place. -/
theorem insert_comm {entries : Entries α} {name other : String} (hne : name ≠ other)
    (hmem : name ∈ entries.names) (u v : α) :
    (entries.insert other v).insert name u = (entries.insert name u).insert other v := by
  induction entries with
  | nil => cases hmem
  | cons e rest ih => grind [insert, names]

/-- A name that has its place may get its value before others are stored, or after. -/
theorem extend_insert {entries : Entries α} {name : String} (hmem : name ∈ entries.names) (v : α)
    {more : Entries α} (hfree : name ∉ more.names) :
    (entries.extend more).insert name v = (entries.insert name v).extend more := by
  induction more generalizing entries with
  | nil => rfl
  | cons e rest ih =>
    obtain ⟨hne, hrest⟩ := not_or.mp fun h => hfree (List.mem_cons.mpr h)
    have hmem' : name ∈ (entries.insert e.1 e.2).names := by
      rw [names_insert]
      split
      · exact hmem
      · exact List.mem_append_left _ hmem
    show ((entries.insert e.1 e.2).extend rest).insert name v =
      ((entries.insert name v).insert e.1 e.2).extend rest
    rw [ih hmem' hrest, insert_comm hne hmem]

/-- The value stored last comes last, wherever it has its place among the others. -/
theorem extend_insert_right (entries : Entries α) {more : Entries α} (hn : more.names.Nodup)
    (name : String) (v : α) :
    entries.extend (more.insert name v) = (entries.extend more).insert name v := by
  induction more generalizing entries with
  | nil => rfl
  | cons e rest ih =>
    obtain ⟨hfree, hrest⟩ := List.nodup_cons.mp hn
    rw [insert]
    split
    · rename_i hname
      subst hname
      show (entries.insert e.1 v).extend rest = ((entries.insert e.1 e.2).extend rest).insert e.1 v
      rw [extend_insert (mem_names_insert entries e.1 e.2) v hfree, insert_insert_self]
    · exact ih (entries.insert e.1 e.2) hrest

/-- Merging is associative, and the order of the names is part of that. -/
theorem extend_extend (entries more others : Entries α) (hn : more.names.Nodup) :
    entries.extend (more.extend others) = (entries.extend more).extend others := by
  induction others generalizing more with
  | nil => rfl
  | cons e rest ih =>
    show entries.extend ((more.insert e.1 e.2).extend rest) = _
    rw [ih _ (nodup_insert hn e.1 e.2), extend_insert_right entries hn]
    rfl

/-- What is merged into nothing first may be merged at once. -/
theorem extend_extend_nil (entries more : Entries α) :
    entries.extend (extend [] more) = entries.extend more :=
  extend_extend entries [] more List.nodup_nil

/-- The names that are new stand behind the others, in the order in which they come first. -/
theorem names_extend (entries more : Entries α) :
    (entries.extend more).names =
      entries.names ++ (more.names.removeAll entries.names).eraseDups := by
  induction more generalizing entries with
  | nil => exact (List.append_nil _).symm
  | cons e rest ih =>
    show ((entries.insert e.1 e.2).extend rest).names =
      entries.names ++ (List.removeAll (e.1 :: names rest) entries.names).eraseDups
    rw [ih, names_insert]
    by_cases h : e.1 ∈ entries.names
    · rw [if_pos ((contains_iff _ _).mpr h)]
      simp [List.removeAll, h]
    · rw [if_neg (mt (contains_iff _ _).mp h)]
      simp [List.removeAll, h, List.eraseDups_cons, List.filter_filter, beq_eq_decide,
        Bool.and_comm]

theorem names_flatten (objects : List (Entries α)) :
    names objects.flatten = objects.flatMap names := by
  rw [names, List.map_flatten]
  rfl

/-- Of two objects, the second one has the last word. -/
theorem get?_extend_of_nodup (entries : Entries α) {more : Entries α} (hn : more.names.Nodup)
    (name : String) :
    (entries.extend more).get? name = (more.get? name).or (entries.get? name) := by
  induction more generalizing entries with
  | nil => rfl
  | cons e rest ih =>
    obtain ⟨hfree, hrest⟩ := List.nodup_cons.mp hn
    show ((entries.insert e.1 e.2).extend rest).get? name = _
    rw [ih _ hrest, get?_insert, get?_cons]
    split
    · rename_i hname
      have hnone : get? rest name = none := by
        rw [← Option.not_isSome_iff_eq_none]
        exact fun h => hfree ((contains_iff _ _).mp (hname ▸ h))
      rw [hnone]
      rfl
    · rfl

/-- Of several objects, the last one that has the name counts. -/
theorem get?_extend_flatten (entries : Entries α) {objects : List (Entries α)}
    (hn : ∀ object ∈ objects, object.names.Nodup) (name : String) :
    (entries.extend objects.flatten).get? name =
      (objects.reverse.findSome? (·.get? name)).or (entries.get? name) := by
  induction objects generalizing entries with
  | nil => rfl
  | cons object rest ih =>
    obtain ⟨hobject, hrest⟩ := List.forall_mem_cons.mp hn
    rw [List.flatten_cons, extend_append, ih _ hrest, get?_extend_of_nodup _ hobject,
      List.reverse_cons, List.findSome?_append, List.findSome?_singleton, Option.or_assoc]

end Entries

/-! ## Sources -/

/-- The first item that fails makes all of them fail. -/
theorem Except.mapM_eq_error {ε β γ : Type} {f : β → Except ε γ} {items : List β} {c : ε} :
    items.mapM f = .error c ↔ ∃ front item back, items = front ++ item :: back ∧
      (∀ before ∈ front, ∃ x, f before = .ok x) ∧ f item = .error c := by
  induction items with
  | nil => simp [pure, Except.pure]
  | cons first rest ih =>
    rw [List.mapM_cons, Except.bind_eq_error]
    constructor
    · rintro (h | ⟨x, hx, h⟩)
      · exact ⟨[], first, rest, rfl, fun _ hmem => (nomatch hmem), h⟩
      · obtain h | ⟨_, -, h⟩ := Except.bind_eq_error.mp h
        · obtain ⟨front, item, back, rfl, hfront, hitem⟩ := ih.mp h
          exact ⟨first :: front, item, back, rfl, List.forall_mem_cons.mpr ⟨⟨x, hx⟩, hfront⟩, hitem⟩
        · cases h
    · rintro ⟨front, item, back, hitems, hfront, hitem⟩
      cases front with
      | nil =>
        obtain ⟨rfl, rfl⟩ := List.cons.inj hitems
        exact .inl hitem
      | cons before front =>
        obtain ⟨rfl, rfl⟩ := List.cons.inj hitems
        obtain ⟨⟨x, hx⟩, hfront⟩ := List.forall_mem_cons.mp hfront
        refine .inr ⟨x, hx, Except.bind_eq_error.mpr (.inl ?_)⟩
        exact ih.mpr ⟨front, item, back, rfl, hfront, hitem⟩

namespace Engine

variable {e : Engine} {world : World τ} {store : Store}

/-- The object a source stands for: a dictionary, or the one that a variable holds. -/
def objectOf (store : Store) : Value → Except Cause (Entries Value)
  | .dict entries => .ok entries
  | .str name =>
    match store.get? name with
    | some (.dict entries) => .ok entries
    | some v =>
      Action.invalid .combineData "data_sources"
        ("variable '" ++ name ++ "' holds " ++ v.typeName ++ ", not an object")
    | none => .error (.undefinedVariable name)
  | v =>
    Action.invalid .combineData "data_sources"
      ("expected a variable name or an object, got " ++ Json.compact v)

theorem merged_cons (store : Store) (done : Entries Value) (v : Value) (rest : List Value) :
    merged store done (v :: rest) =
      objectOf store v >>= fun entries => merged store (done.extend entries) rest := by
  cases v with
  | dict entries => rfl
  | str name =>
    rw [merged, objectOf]
    cases store.get? name with
    | none => rfl
    | some v => cases v <;> rfl
  | null | bool | int | float | list => rfl

/-- Merging sources is merging the objects they stand for, if all of them do. -/
theorem merged_eq (store : Store) (done : Entries Value) (sources : List Value) :
    merged store done sources =
      (sources.mapM (objectOf store)).map fun objects => done.extend objects.flatten := by
  induction sources generalizing done with
  | nil => rfl
  | cons v rest ih =>
    rw [merged_cons, List.mapM_cons]
    cases objectOf store v with
    | error c => rfl
    | ok entries =>
      show merged store (done.extend entries) rest =
        Except.map _ (rest.mapM (objectOf store) >>= fun objects => pure (entries :: objects))
      rw [ih]
      cases rest.mapM (objectOf store) with
      | error c => rfl
      | ok objects => exact congrArg Except.ok (Entries.extend_append done entries _).symm

/-- Sources that are split into two groups, each of which is merged on its own, give the same object
when what came of the two groups is merged, whatever stands for it then. -/
theorem merged_split {front back : List Value} {m : Entries Value}
    (h : merged store [] (front ++ back) = .ok m) :
    ∃ first last, merged store [] front = .ok first ∧ merged store [] back = .ok last ∧
      ∀ later u v, objectOf later u = .ok first → objectOf later v = .ok last →
        merged later [] [u, v] = .ok m := by
  rw [merged_eq, Except.map_eq_ok] at h
  obtain ⟨objects, hobjects, rfl⟩ := h
  rw [List.mapM_append] at hobjects
  obtain ⟨as, has, hobjects⟩ := Except.bind_eq_ok.mp hobjects
  obtain ⟨bs, hbs, hobjects⟩ := Except.bind_eq_ok.mp hobjects
  cases hobjects
  refine ⟨_, _, by rw [merged_eq, has]; rfl, by rw [merged_eq, hbs]; rfl, ?_⟩
  intro later u v hu hv
  rw [merged_cons, hu]
  show merged later _ [v] = _
  rw [merged_cons, hv]
  refine congrArg Except.ok ?_
  rw [Entries.extend_extend_nil, Entries.extend_extend_nil, List.flatten_append,
    Entries.extend_append]

/-! ## Steps that merge -/

/-- A step that merges these sources. -/
def combining (sources : List Value) (target : String) : Step :=
  ⟨[("action", .str "combine_data"), ("data_sources", .list sources), ("output_var", .str target)]⟩

/-- Any sources can be merged, if the placeholders in them can be filled. -/
theorem preparation_combining (he : e.registry.find? "combine_data" = some (.ofKind .combineData))
    {r : Run} (hr : r.cancelled = false) {sources filled : List Value} {target : String}
    (hs : Template.resolve r.store e.config.undefinedVariables (.list sources) = .ok (.list filled))
    (ht : isIdentifier target = true) :
    e.preparation r (combining sources target) =
      .ok (.ofKind .combineData, combining filled target) := by
  have htarget := Template.resolve_str_plain r.store e.config.undefinedVariables
    (Template.plain_of_isIdentifier ht)
  have hd : e.actionOf (combining sources target) = .ok (.ofKind .combineData) :=
    actionOf_eq_ok.mpr ⟨_, rfl, he, rfl⟩
  have hf : e.fieldsRead (.ofKind .combineData) r.store (combining sources target).fields =
      .ok (combining filled target).fields.tail := by
    show (Template.resolve r.store e.config.undefinedVariables (.list sources) >>= fun v =>
      (Template.resolve r.store e.config.undefinedVariables (.str target) >>= fun w =>
        .ok [("output_var", w)]) >>= fun rest => .ok (("data_sources", v) :: rest)) = _
    rw [hs, htarget]
    rfl
  have hc : Action.check .combineData (combining filled target) = .ok () := by
    show Except.map _ (Action.checkName .combineData "output_var" target >>= fun _ =>
      .ok (Action.merge filled target)) = _
    rw [Action.checkName, if_pos ht]
    rfl
  exact preparation_of_ready hr hd (ready_eq_ok.mpr ⟨⟨_, hf, rfl⟩, hc⟩)

theorem read_combineData {s' : Step} (h : Action.check .combineData s' = .ok ()) :
    Action.read .combineData s' =
      .ok (.merge (s'.items "data_sources") ((s'.text? "output_var").getD "combined_data")) := by
  obtain ⟨a, ha, -⟩ := Except.map_eq_ok.mp h
  rw [ha]
  obtain ⟨_, -, ha⟩ := Except.bind_eq_ok.mp ha
  dsimp only at ha
  split at ha
  · obtain ⟨_, -, ha⟩ := Except.bind_eq_ok.mp ha
    cases ha
    rfl
  · cases ha
    rfl

/-- A step that merges and has been prepared ends with what comes of its sources, which goes into
the history; if they stand for objects, what they are merged into is stored first. -/
theorem run_dispatch_merge (hw : world.OnlyCancels) {s s' : Step} {r : Run} {t : τ}
    (h : e.preparation (world.meanwhile r t).1 s = .ok (.ofKind .combineData, s')) :
    let target := (s'.text? "output_var").getD "combined_data"
    let result := merged r.store [] (s'.items "data_sources")
    let o := e.closing "combine_data" (result.map fun _ =>
      .success "combine_data" ("Combined data saved to " ++ target))
    ((e.dispatch s).run world r t).1 = o ∧
      ∃ b, ((e.dispatch s).run world r t).2.1 =
        ((match result with
          | .ok m => r.assign target (.dict m)
          | .error _ => r).log ⟨"combine_data", o⟩).marked b := by
  intro target result o
  refine run_dispatch_carried hw h (read_combineData (ready_eq_ok.mp (preparation_eq_ok h).2).2) ?_
  intro b t
  obtain ⟨b', t', hcarry⟩ :=
    run_assigning hw (fun store => merged store [] (s'.items "data_sources")) target .dict
      (fun _ => Outcome.success "combine_data" ("Combined data saved to " ++ target)) r b t
  refine ⟨b', t', hcarry.trans ?_⟩
  cases hm : merged r.store [] (s'.items "data_sources") with
  | error c =>
    simp only [result, hm]
    rfl
  | ok m =>
    simp only [result, hm]
    rfl

/-- Combining data merges objects from left to right. If all its sources stand for objects, the one
that is stored has the value of the last object under every name, and its names in the order in
which they come first; however the sources are split, merging the two parts and then what came of
them gives the same object. Otherwise the step fails because of the first source that stands for no
object, and leaves every variable as it is, whether or not it was to be set. -/
theorem dispatch_merges (hw : world.OnlyCancels) {s s' : Step} {r : Run} {t : τ}
    (h : e.preparation (world.meanwhile r t).1 s = .ok (.ofKind .combineData, s')) :
    let sources := s'.items "data_sources"
    let target := (s'.text? "output_var").getD "combined_data"
    (∀ objects, sources.mapM (objectOf r.store) = .ok objects →
      (∀ object ∈ objects, object.names.Nodup) →
      ∃ (m : Entries Value) (b : Bool),
        let o : Outcome := .success "combine_data" ("Combined data saved to " ++ target)
        ((e.dispatch s).run world r t).1 = o ∧
        ((e.dispatch s).run world r t).2.1 =
          ((r.assign target (.dict m)).log ⟨"combine_data", o⟩).marked b ∧
        (∀ name, m.get? name = objects.reverse.findSome? (·.get? name)) ∧
        m.names = (objects.flatMap Entries.names).eraseDups ∧
        ∀ front back, sources = front ++ back →
          ∃ first last, merged r.store [] front = .ok first ∧ merged r.store [] back = .ok last ∧
            ∀ later u v, objectOf later u = .ok first → objectOf later v = .ok last →
              merged later [] [u, v] = .ok m) ∧
    (∀ front source back c, sources = front ++ source :: back →
      (∀ before ∈ front, ∃ object, objectOf r.store before = .ok object) →
      objectOf r.store source = .error c →
      ∃ b, let o := e.failure (some "combine_data") c
        ((e.dispatch s).run world r t).1 = o ∧
        ((e.dispatch s).run world r t).2.1 = (r.log ⟨"combine_data", o⟩).marked b ∧
        ((e.dispatch s).run world r t).2.1.store = r.store) := by
  intro sources target
  obtain ⟨houtcome, b, hrun⟩ := run_dispatch_merge hw h
  refine ⟨fun objects hobjects hn => ?_, fun front source back c hsources hfront hsource => ?_⟩
  · -- All sources stand for objects, and merging them extends the empty object by each in turn.
    have hm : merged r.store [] sources = .ok (Entries.extend [] objects.flatten) := by
      rw [merged_eq, hobjects]
      rfl
    refine ⟨Entries.extend [] objects.flatten, b, ?_, ?_, fun name => ?_, ?_, ?_⟩
    · rw [houtcome, hm]
      rfl
    · rw [hrun, hm]
      rfl
    · rw [Entries.get?_extend_flatten _ hn]
      exact Option.or_none
    · rw [Entries.names_extend, Entries.names_flatten]
      simp [Entries.names, List.removeAll]
    · exact fun front back hsplit => merged_split (hsplit ▸ hm)
  · -- The first source that stands for none ends the merging before anything is stored.
    have hm : merged r.store [] sources = .error c := by
      rw [merged_eq, Except.map_eq_error, Except.mapM_eq_error]
      exact ⟨front, source, back, hsources, hfront, hsource⟩
    refine ⟨b, ?_, ?_, ?_⟩
    · rw [houtcome, hm]
      rfl
    · rw [hrun, hm]
      rfl
    · rw [hrun, hm, Run.store_marked, Run.store_log]

/-- A variable takes in two more objects, and is left as it is when one of the others is missing. -/
theorem dispatch_merges_into_source :
    let e : Engine := {}
    let r := (Run.create "merging" {} e.config).seed
      [("m", .dict [("a", .int 1), ("b", .int 1)]), ("n", .null)]
    let world : World Unit := .answering Wait.quiet
    let after (sources : List Value) := (e.dispatch (combining sources "m")).run world r ()
    let taken := after [.str "m", .dict [("c", .int 2), ("b", .int 2)], .dict [("a", .int 3)]]
    let refused := after [.str "m", .str "gone", .str "n"]
    (∃ m : Entries Value, ∃ b, taken.2.1 =
        ((r.assign "m" (.dict m)).log ⟨"combine_data", taken.1⟩).marked b ∧
      m.names = ["a", "b", "c"] ∧ m.get? "a" = some (.int 3) ∧ m.get? "b" = some (.int 2)) ∧
    refused.1 = e.failure (some "combine_data") (.undefinedVariable "gone") ∧
      refused.2.1.store = r.store := by
  intro e r world after taken refused
  have hw : world.OnlyCancels := ⟨fun _ _ => .inl rfl, fun _ _ _ => .inl rfl⟩
  have hfill {name : String} (h : isIdentifier name = true) :=
    Template.resolve_str_plain r.store e.config.undefinedVariables
      (Template.plain_of_isIdentifier h)
  have hm : isIdentifier "m" = true := rfl
  constructor
  · let sources : List Value :=
      [.str "m", .dict [("c", .int 2), ("b", .int 2)], .dict [("a", .int 3)]]
    have hs : Template.resolve r.store e.config.undefinedVariables (.list sources) =
        .ok (.list sources) := by
      rw [Template.resolve, Template.resolveItems, hfill hm]
      rfl
    obtain ⟨m, b, houtcome, hrun, hvalues, hnames, -⟩ :=
      (dispatch_merges hw (t := ()) (preparation_combining rfl rfl hs hm)).1
        [[("a", .int 1), ("b", .int 1)], [("c", .int 2), ("b", .int 2)], [("a", .int 3)]] rfl
        (by decide)
    exact ⟨m, b, houtcome ▸ hrun, hnames, hvalues "a", hvalues "b"⟩
  · let sources : List Value := [.str "m", .str "gone", .str "n"]
    have hs : Template.resolve r.store e.config.undefinedVariables (.list sources) =
        .ok (.list sources) := by
      rw [Template.resolve, Template.resolveItems, hfill hm, Template.resolveItems,
        hfill (show isIdentifier "gone" = true from rfl), Template.resolveItems,
        hfill (show isIdentifier "n" = true from rfl)]
      rfl
    obtain ⟨b, houtcome, -, hstore⟩ :=
      (dispatch_merges hw (t := ()) (preparation_combining rfl rfl hs hm)).2
        [.str "m"] (.str "gone") [.str "n"] _ rfl
        (List.forall_mem_singleton.mpr ⟨_, rfl⟩) rfl
    exact ⟨houtcome, hstore⟩

end Engine

end Stepwise
