import Stepwise.Proofs.Minding

/-!
# Steps that ask for a trigger

A step that asks for a trigger has its list handed over as it was written and its other fields
filled, and it is refused unless they make up a trigger of their kind. Otherwise it records the
trigger and writes its success to the history, with nothing between the two.

* `TriggerKind.Takes`, `Trigger.Valid`: what a trigger of each kind needs.
* `Engine.Records`: the trigger that a step asks to be recorded.
* `Engine.dispatch_trigger`: all that such a step can do.
* `Engine.dispatch_trigger_path`, `Engine.dispatch_trigger_ready`: what it has done when it has
  succeeded, and when it succeeds.
-/

namespace Stepwise

/-! ## Triggers and what they need -/

/-- The field that sets off a trigger of this kind. -/
def TriggerKind.field : TriggerKind → String
  | timeBased => "time"
  | interval => "interval"
  | eventBased => "event"

/-- The field is one that the action reads and that is filled. -/
theorem TriggerKind.field_declared (kind : TriggerKind) :
    kind.field ≠ "action" ∧ (Descriptor.ofKind .trigger).raw.contains kind.field = false ∧
      (Descriptor.ofKind .trigger).declares kind.field = true := by
  cases kind <;> decide

/-- A field with this value sets off a trigger of this kind, which then has this setting. -/
inductive TriggerKind.Takes : TriggerKind → Value → Value → Prop
  | time {text : String} : Text.isAllBlank text = false → Takes timeBased (.str text) (.str text)
  | interval {v : Value} {x : Float} : v.number? = some x → x.isFinite = true → 0 < x →
      Takes interval v (.float x)
  | event {text : String} : Text.isAllBlank text = false → Takes eventBased (.str text) (.str text)

/-- A trigger has the setting that its kind needs: a text that is not blank for a time or an event,
and a positive finite number for an interval. -/
def Trigger.Valid (t : Trigger) : Prop :=
  match t.kind with
  | .timeBased | .eventBased => ∃ text, t.setting = .str text ∧ Text.isAllBlank text = false
  | .interval => ∃ x : Float, t.setting = .float x ∧ x.isFinite = true ∧ 0 < x

namespace Step

variable {s : Step} {field : String}

theorem text?_eq_some {text : String} :
    s.text? field = some text ↔ s.get? field = some (.str text) := by
  rw [text?, Option.bind_eq_some_iff]
  constructor
  · rintro ⟨v, hv, htext⟩
    cases v with
    | str text' => rw [hv, ← Option.some.inj htext]
    | null | bool | int | float | list | dict => cases htext
  · exact fun h => ⟨_, h, rfl⟩

theorem given?_eq_some {v : Value} :
    s.given? field = some v ↔ s.get? field = some v ∧ v ≠ .null := by
  rw [given?, Value.given?, get?]
  split
  · rename_i h
    rw [h]
    refine iff_of_false (fun hv => (Option.some_ne_none v) hv.symm) fun hv => ?_
    exact hv.2 (Option.some.inj hv.1).symm
  · rename_i hne
    refine ⟨fun h => ⟨h, ?_⟩, And.left⟩
    rintro rfl
    exact hne h

theorem given?_eq_none :
    s.given? field = none ↔ s.get? field = none ∨ s.get? field = some .null := by
  rw [given?, Value.given?, get?]
  split
  · rename_i h
    exact iff_of_true rfl (.inr h)
  · rename_i hne
    exact (or_iff_left hne).symm

end Step

namespace Action

variable {s : Step}

theorem triggerText_eq_ok {field text : String} (h : triggerText s field = .ok text) :
    s.get? field = some (.str text) ∧ Text.isAllBlank text = false := by
  unfold triggerText at h
  split at h
  · rename_i text' htext
    split at h
    · cases h
    · rename_i hblank
      cases h
      exact ⟨Step.text?_eq_some.mp htext, Bool.eq_false_iff.mpr hblank⟩
  · cases h

/-- The setting of a trigger is taken from the field of its kind. -/
theorem triggerSetting_eq_ok {kind : TriggerKind} {setting : Value} {message : String}
    (h : triggerSetting kind s = .ok (setting, message)) :
    ∃ v, s.get? kind.field = some v ∧ kind.Takes v setting := by
  -- Each kind has one field, which is checked in its own way.
  cases kind with
  | timeBased =>
    obtain ⟨text, htext, h⟩ := Except.bind_eq_ok.mp h
    cases h
    obtain ⟨hv, hblank⟩ := triggerText_eq_ok htext
    exact ⟨_, hv, .time hblank⟩
  | eventBased =>
    obtain ⟨text, htext, h⟩ := Except.bind_eq_ok.mp h
    cases h
    obtain ⟨hv, hblank⟩ := triggerText_eq_ok htext
    exact ⟨_, hv, .event hblank⟩
  | interval =>
    rw [triggerSetting] at h
    split at h
    · rename_i x hx
      split at h
      · rename_i hpositive
        cases h
        obtain ⟨v, hgiven, hnumber⟩ := Option.bind_eq_some_iff.mp hx
        rw [Bool.and_eq_true, decide_eq_true_eq] at hpositive
        exact ⟨v, (Step.given?_eq_some.mp hgiven).1, .interval hnumber hpositive.1 hpositive.2⟩
      · cases h
    · cases h

/-- What is read as a trigger names its kind, has what this kind needs, and lists steps. -/
theorem readTrigger_eq_ok {a : Action} (h : readTrigger s = .ok a) :
    ∃ t message name v ts, a = .record t message ∧ s.get? "type" = some (.str name) ∧
      TriggerKind.ofText? name = some t.kind ∧ s.get? t.kind.field = some v ∧
      t.kind.Takes v t.setting ∧ t.config = s.given? "config" ∧
      s.children? "steps" = some (.ok ts) ∧ t.steps = ts.map Step.toValue := by
  obtain ⟨ts, hts, h⟩ := Except.bind_eq_ok.mp h
  obtain ⟨_, -, h⟩ := Except.bind_eq_ok.mp h
  dsimp only at h
  split at h
  · cases h
  · rename_i kind hkind
    obtain ⟨⟨setting, message⟩, hsetting, h⟩ := Except.bind_eq_ok.mp h
    cases h
    obtain ⟨v, hv, htakes⟩ := triggerSetting_eq_ok hsetting
    have hchildren := children_of_ok hts
    have hitems : s.items "steps" = ts.map Step.toValue := by
      rw [Step.items, Step.children?_eq_ok.mp hchildren]
    cases hname : s.text? "type" with
    | none =>
      rw [hname] at hkind
      cases hkind
    | some name =>
      rw [hname] at hkind
      exact ⟨_, _, name, v, ts, rfl, Step.text?_eq_some.mp hname, hkind, hv, htakes, rfl,
        hchildren, hitems⟩

end Action

namespace Engine

open Attempt (settled access)

variable {e : Engine} {d : Descriptor} {s s' : Step} {store : Store} {t : Trigger}
  {field message : String} {v w : Value}

/-! ## What a step asks to be recorded -/

/-- The step asks for this trigger to be recorded when the variables stand so. The steps of the
trigger are those of the step as they were written; its other parts are filled. -/
structure Records (e : Engine) (s : Step) (store : Store) (t : Trigger) : Prop where
  action : s.action? = some "trigger"
  kind : ∃ name, e.Fills store s "type" (.str name) ∧ TriggerKind.ofText? name = some t.kind
  setting : ∃ w, e.Fills store s t.kind.field w ∧ t.kind.Takes w t.setting
  /-- A field with nothing in it counts as none. -/
  config : match t.config with
    | some w => w ≠ .null ∧ e.Fills store s "config" w
    | none => s.get? "config" = none ∨ e.Fills store s "config" .null
  steps : s.get? "steps" = some (.list t.steps)
  /-- Every entry of the list is a step. -/
  children : ∃ ts : List Step, t.steps = ts.map Step.toValue

theorem Records.valid (h : e.Records s store t) : t.Valid := by
  obtain ⟨w, -, htakes⟩ := h.setting
  obtain ⟨kind, setting, config, steps⟩ := t
  cases htakes with
  | time hblank => exact ⟨_, rfl, hblank⟩
  | event hblank => exact ⟨_, rfl, hblank⟩
  | interval _ hfinite hpositive => exact ⟨_, rfl, hfinite, hpositive⟩

/-- A step that is made ready asks for the trigger that is read from it. -/
theorem records_of_read (hs : s.action? = some "trigger")
    (h : e.HandedOver (.ofKind .trigger) store s s')
    (ha : Action.read .trigger s' = .ok (.record t message)) : e.Records s store t := by
  obtain ⟨t', message', name, v, ts, hrecord, hname, hkind, hv, htakes, hconfig, hchildren,
    hsteps⟩ := Action.readTrigger_eq_ok ha
  obtain ⟨rfl, rfl⟩ := Action.record.inj hrecord
  rw [h.children?_raw (by decide) (by decide) (by decide)] at hchildren
  obtain ⟨hkey, hraw, hdeclared⟩ := t.kind.field_declared
  refine ⟨hs, ⟨name, (h.get?_eq_some (by decide) (by decide) (by decide)).mp hname, hkind⟩,
    ⟨v, (h.get?_eq_some hkey hraw hdeclared).mp hv, htakes⟩, ?_, ?_, ts, hsteps⟩
  · rw [hconfig]
    split
    · rename_i w hgiven
      obtain ⟨hw, hne⟩ := Step.given?_eq_some.mp hgiven
      exact ⟨hne, (h.get?_eq_some (by decide) (by decide) (by decide)).mp hw⟩
    · rename_i hgiven
      refine (Step.given?_eq_none.mp hgiven).imp (fun hnone => ?_) fun hnull => ?_
      · exact h.get?_eq_none_of (by decide) (by decide) hnone
      · exact (h.get?_eq_some (by decide) (by decide) (by decide)).mp hnull
  · rw [Step.children?_eq_ok.mp hchildren, hsteps]

/-! ## The dispatch of a step -/

/-- A step that is made ready for its trigger records it, and succeeds. -/
theorem handle_trigger (hs : s.action? = some "trigger")
    (h : e.ready (.ofKind .trigger) store s = .ok s')
    (lists : String → Process (Except Outcome Nat)) :
    ∃ t message, e.Records s store t ∧ (e.handle lists (.ofKind .trigger) s').run =
      .access (.record t) fun _ => .done (.ok (.success "trigger" message)) := by
  obtain ⟨hhanded, hcheck⟩ := ready_eq_ok.mp h
  obtain ⟨a, ha, -⟩ := Except.map_eq_ok.mp hcheck
  obtain ⟨t, message, -, -, -, rfl, -⟩ := Action.readTrigger_eq_ok ha
  refine ⟨t, message, records_of_read hs hhanded ha, ?_⟩
  show (settled (Action.read .trigger s') >>= _ : Attempt _).run = _
  rw [ha]
  rfl

/-- A step that asks for a trigger is refused before anything is done, or records the trigger and
succeeds. What is checked once more when the action is carried out has been checked before. -/
theorem dispatch_trigger (he : e.registry = .builtins) (hs : s.action? = some "trigger") :
    ∃ next : Bool → Process Outcome, e.dispatch s = .access (.poll (.step s)) next ∧
      next true = .done (e.failure s.action? .cancelled) ∧
      ((∃ c, e.actionOf s = .error c ∧ next false = .done (e.failure s.action? c)) ∨
        e.actionOf s = .ok (.ofKind .trigger) ∧
        ∃ look : Store → Process Outcome, next false = .access .read look ∧ ∀ store,
          (∃ c, e.ready (.ofKind .trigger) store s = .error c ∧
            look store = .done (e.failure s.action? c)) ∨
          ∃ s' t message, e.ready (.ofKind .trigger) store s = .ok s' ∧ e.Records s store t ∧
            look store = .access (.record t) fun _ =>
              .access (.log ⟨"trigger", .success "trigger" message⟩) fun _ =>
                .done (.success "trigger" message)) := by
  refine ⟨_, dispatch_eq_ready e s, rfl, ?_⟩
  cases hd : e.actionOf s with
  | error c => exact .inl ⟨c, rfl, rfl⟩
  | ok d =>
    obtain ⟨k, rfl, hk⟩ := actionOf_builtins he hd
    obtain rfl : k = .trigger := Action.Kind.name_inj (Option.some.inj (hk.symm.trans hs))
    refine .inr ⟨rfl, _, rfl, fun store => ?_⟩
    cases hready : e.ready (.ofKind .trigger) store s with
    | error c => exact .inl ⟨c, rfl, rfl⟩
    | ok s' =>
      obtain ⟨t, message, ht, hhandle⟩ := handle_trigger hs hready (e.runField s.fields)
      -- Reading it succeeded when it was made ready, so nothing can fail any more.
      refine .inr ⟨s', t, message, rfl, ht, ?_⟩
      dsimp only
      rw [hhandle]
      rfl

/-- The moves of a step that records a trigger and succeeds. -/
def recordingMoves (s : Step) (store : Store) (t : Trigger) (o : Outcome) : List Move :=
  [.access (.poll (.step s)) false, .access .read store, .access (.record t) (),
    .access (.log ⟨"trigger", o⟩) ()]

/-- A step that asks for a trigger and has succeeded looked at the variables, recorded the trigger,
and wrote its success to the history. -/
theorem dispatch_trigger_path (he : e.registry = .builtins) (hs : s.action? = some "trigger")
    {moves : List Move} {o : Outcome} (h : (e.dispatch s).Path moves (.done o))
    (ho : o.isError = false) :
    ∃ store t, e.Records s store t ∧ moves = recordingMoves s store t o := by
  have hfailed {c : Cause} {moves : List Move}
      (h : (Process.done (e.failure s.action? c)).Path moves (.done o)) : False := by
    obtain ⟨-, hdone⟩ := h.of_done
    cases hdone
    cases ho
  obtain ⟨next, hnext, hcancelled, hprepared⟩ := dispatch_trigger he hs
  rw [hnext] at h
  -- The path is taken apart move by move; every refusal on the way would be the outcome.
  cases h with
  | @access _ _ cancelled _ _ h =>
    cases cancelled with
    | true => exact (hfailed (hcancelled ▸ h)).elim
    | false =>
      rcases hprepared with ⟨c, -, hrefused⟩ | ⟨-, look, hlook, hstore⟩
      · exact (hfailed (hrefused ▸ h)).elim
      · rw [hlook] at h
        cases h with
        | @access _ _ store _ _ h =>
          rcases hstore store with ⟨c, -, hrefused⟩ | ⟨s', t, message, -, ht, hrecord⟩
          · exact (hfailed (hrefused ▸ h)).elim
          · rw [hrecord] at h
            cases h with
            | access h =>
              cases h with
              | access h =>
                obtain ⟨rfl, hdone⟩ := h.of_done
                cases hdone
                exact ⟨store, t, ht, rfl⟩

/-- A step that is made ready for its trigger does succeed, unless it is cancelled before. -/
theorem dispatch_trigger_ready (he : e.registry = .builtins) (hs : s.action? = some "trigger")
    (hd : e.actionOf s = .ok (.ofKind .trigger))
    (hready : e.ready (.ofKind .trigger) store s = .ok s') :
    ∃ t o, o.isError = false ∧ e.Records s store t ∧
      (e.dispatch s).Path (recordingMoves s store t o) (.done o) := by
  obtain ⟨next, hnext, -, hprepared⟩ := dispatch_trigger he hs
  rcases hprepared with ⟨c, hrefused, -⟩ | ⟨-, look, hlook, hstore⟩
  · cases hd.symm.trans hrefused
  · rcases hstore store with ⟨c, hrefused, -⟩ | ⟨s'', t, message, -, ht, hrecord⟩
    · cases hready.symm.trans hrefused
    · refine ⟨t, .success "trigger" message, rfl, ht, ?_⟩
      rw [hnext]
      refine .access ?_
      rw [hlook]
      refine .access ?_
      rw [hrecord]
      exact .access (.access .refl)

end Engine

end Stepwise
