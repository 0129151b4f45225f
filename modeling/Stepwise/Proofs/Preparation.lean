import Stepwise.Proofs.Except
import Stepwise.Proofs.Watch

/-!
# What preparing a step does

A step is handed over to its action with the fields the action reads, and those that are raw are
handed over as they were written. This module says what the handed-over step holds, and what is
known once a step has been prepared or could not be.

* `Engine.HandedOver`: the step as its action sees it, with `HandedOver.get?_raw` and its siblings.
* `Engine.Fills`: what the action finds in a field that is not raw.
* `Engine.Prepared`, `Engine.Unprepared`: the two ends of a preparation.
* `Engine.prepare_keeps`: the rule for preparing a step under a watch.
* `Registry.find?_builtins`: the built-in actions are found under their names.
-/

namespace Stepwise

/-! ## Entries without some names -/

theorem Entries.get?_filter_ne {α : Type} (entries : Entries α) {name other : String}
    (h : name ≠ other) : Entries.get? (entries.filter (·.1 ≠ other)) name = entries.get? name := by
  induction entries with
  | nil => rfl
  | cons e rest ih => grind [Entries.get?]

namespace Engine

variable {e : Engine} {d : Descriptor} {store : Store} {s s' : Step} {field : String} {v : Value}

/-! ## The fields an action reads -/

/-- A field the action reads is filled and keeps its name. -/
theorem get?_fieldsRead {fields out : Entries Value} (h : e.fieldsRead d store fields = .ok out)
    (hd : d.declares field = true) (hv : fields.get? field = some v) :
    ∃ w, e.filled d store field v = .ok w ∧ out.get? field = some w := by
  induction fields generalizing out with
  | nil => cases hv
  | cons entry rest ih =>
    obtain ⟨name, u⟩ := entry
    rw [fieldsRead] at h
    by_cases hn : name = field
    · subst hn
      rw [if_pos hd] at h
      obtain ⟨w, hw, h⟩ := Except.bind_eq_ok.mp h
      obtain ⟨out', -, h⟩ := Except.bind_eq_ok.mp h
      cases h
      obtain rfl : u = v := by simpa [Entries.get?] using hv
      exact ⟨w, hw, by simp [Entries.get?]⟩
    · have hv' : Entries.get? rest field = some v := by simpa [Entries.get?, hn] using hv
      split at h
      · obtain ⟨w, -, h⟩ := Except.bind_eq_ok.mp h
        obtain ⟨out', hout, h⟩ := Except.bind_eq_ok.mp h
        cases h
        simpa [Entries.get?, hn] using ih hout hv'
      · exact ih h hv'

/-- The action reads no other field. -/
theorem get?_fieldsRead_eq_none {fields out : Entries Value}
    (h : e.fieldsRead d store fields = .ok out)
    (hf : d.declares field = false ∨ fields.get? field = none) : out.get? field = none := by
  induction fields generalizing out with
  | nil => cases h; rfl
  | cons entry rest ih =>
    obtain ⟨name, u⟩ := entry
    have hrest : d.declares field = false ∨ Entries.get? rest field = none := by
      rcases hf with hf | hf
      · exact .inl hf
      · simp only [Entries.get?] at hf
        split at hf
        · cases hf
        · exact .inr hf
    rw [fieldsRead] at h
    split at h
    · rename_i hd
      obtain ⟨w, -, h⟩ := Except.bind_eq_ok.mp h
      obtain ⟨out', hout, h⟩ := Except.bind_eq_ok.mp h
      cases h
      have hn : name ≠ field := by
        rintro rfl
        rcases hf with hf | hf
        · rw [hd] at hf; cases hf
        · simp [Entries.get?] at hf
      simpa [Entries.get?, hn] using ih hout hrest
    · exact ih h hrest

theorem fieldsRead_failsOnly {P : Cause → Prop} {fields : Entries Value}
    (h : ∀ v, Except.FailsOnly P (Template.resolve store e.config.undefinedVariables v)) :
    Except.FailsOnly P (e.fieldsRead d store fields) := by
  induction fields with
  | nil => exact .ok _
  | cons entry rest ih =>
    rw [fieldsRead]
    split
    · refine .bind ?_ fun w _ => .bind ih fun out _ => .pure _
      unfold filled
      split
      · exact .ok _
      · exact h _
    · exact ih

/-- The fields are read if each that is declared can be filled. -/
theorem fieldsRead_eq_ok {fields : Entries Value}
    (h : ∀ entry ∈ fields, d.declares entry.1 = true →
      ∃ w, e.filled d store entry.1 entry.2 = .ok w) :
    ∃ out, e.fieldsRead d store fields = .ok out := by
  induction fields with
  | nil => exact ⟨[], rfl⟩
  | cons entry rest ih =>
    obtain ⟨out, hout⟩ := ih fun entry he => h entry (List.mem_cons_of_mem _ he)
    rw [fieldsRead]
    split
    · rename_i hd
      obtain ⟨w, hw⟩ := h entry List.mem_cons_self hd
      rw [hw, hout]
      exact ⟨_, rfl⟩
    · exact ⟨out, hout⟩

/-! ## The step that is handed over -/

/-- The action of `s`, if it is `d`, sees `s'` when the variables stand so. -/
def HandedOver (e : Engine) (d : Descriptor) (store : Store) (s s' : Step) : Prop :=
  ∃ fields, e.fieldsRead d store s.fields = .ok fields ∧
    s' = handedOver (s.action?.getD "") fields

/-- The field of the step has this value, with its placeholders replaced by these variables. -/
def Fills (e : Engine) (store : Store) (s : Step) (field : String) (w : Value) : Prop :=
  ∃ v, s.get? field = some v ∧ Template.resolve store e.config.undefinedVariables v = .ok w

theorem Fills.unique {w w' : Value} (h : e.Fills store s field w) (h' : e.Fills store s field w') :
    w = w' := by
  obtain ⟨v, hv, hw⟩ := h
  obtain ⟨v', hv', hw'⟩ := h'
  obtain rfl := Option.some.inj (hv.symm.trans hv')
  exact Except.ok.inj (hw.symm.trans hw')

namespace HandedOver

theorem get?_eq (name : String) (fields : Entries Value) (h : field ≠ "action") :
    (handedOver name fields).get? field = fields.get? field := by
  rw [Step.get?, Engine.handedOver, Entries.get?, if_neg h.symm]
  exact Entries.get?_filter_ne fields h

/-- A field the action reads is there, and filled. -/
theorem get?_filled (h : e.HandedOver d store s s') (ha : field ≠ "action")
    (hd : d.declares field = true) (hv : s.get? field = some v) :
    ∃ w, e.filled d store field v = .ok w ∧ s'.get? field = some w := by
  obtain ⟨fields, hr, rfl⟩ := h
  rw [get?_eq _ _ ha]
  exact get?_fieldsRead hr hd hv

theorem get?_eq_none (h : e.HandedOver d store s s') (ha : field ≠ "action")
    (hf : d.declares field = false ∨ s.get? field = none) : s'.get? field = none := by
  obtain ⟨fields, hr, rfl⟩ := h
  rw [get?_eq _ _ ha]
  exact get?_fieldsRead_eq_none hr hf

/-- A raw field is there as it was written. -/
theorem get?_raw (h : e.HandedOver d store s s') (ha : field ≠ "action")
    (hd : d.declares field = true) (hr : d.raw.contains field = true) :
    s'.get? field = s.get? field := by
  cases hv : s.get? field with
  | none => exact h.get?_eq_none ha (.inr hv)
  | some v =>
    obtain ⟨w, hw, hs⟩ := h.get?_filled ha hd hv
    rw [filled, if_pos hr] at hw
    cases hw
    exact hs

theorem children?_raw (h : e.HandedOver d store s s') (ha : field ≠ "action")
    (hd : d.declares field = true) (hr : d.raw.contains field = true) :
    s'.children? field = s.children? field := by
  rw [Step.children?, Step.children?, h.get?_raw ha hd hr]

/-- A field that is not raw is handed over filled. -/
theorem get?_eq_some {w : Value} (h : e.HandedOver d store s s') (ha : field ≠ "action")
    (hr : d.raw.contains field = false) (hd : d.declares field = true) :
    s'.get? field = some w ↔ e.Fills store s field w := by
  have hfilled {v : Value} (hv : s.get? field = some v) :
      ∃ w, Template.resolve store e.config.undefinedVariables v = .ok w ∧
        s'.get? field = some w := by
    obtain ⟨w, hw, hs⟩ := h.get?_filled ha hd hv
    rw [filled, if_neg (Bool.eq_false_iff.mp hr)] at hw
    exact ⟨w, hw, hs⟩
  constructor
  · intro hw
    cases hv : s.get? field with
    | none => cases (h.get?_eq_none ha (.inr hv)).symm.trans hw
    | some v =>
      obtain ⟨w', hresolved, hw'⟩ := hfilled hv
      obtain rfl := Option.some.inj (hw'.symm.trans hw)
      exact ⟨v, hv, hresolved⟩
  · rintro ⟨v, hv, hw⟩
    obtain ⟨w', hresolved, hw'⟩ := hfilled hv
    rw [hw', Except.ok.inj (hresolved.symm.trans hw)]

/-- A field that is not handed over was not there. -/
theorem get?_eq_none_of (h : e.HandedOver d store s s') (ha : field ≠ "action")
    (hd : d.declares field = true) (hf : s'.get? field = none) : s.get? field = none := by
  cases hv : s.get? field with
  | none => rfl
  | some v =>
    obtain ⟨w, -, hw⟩ := h.get?_filled ha hd hv
    cases hf.symm.trans hw

/-- A field that the action reads is not lost. -/
theorem contains (h : e.HandedOver d store s s') (ha : field ≠ "action")
    (hd : d.declares field = true) (hc : s.contains field = true) : s'.contains field = true := by
  obtain ⟨v, hv⟩ := Option.isSome_iff_exists.mp hc
  obtain ⟨w, -, hw⟩ := h.get?_filled ha hd hv
  exact Option.isSome_iff_exists.mpr ⟨w, hw⟩

end HandedOver

theorem ready_eq_ok : e.ready d store s = .ok s' ↔
    e.HandedOver d store s s' ∧ d.handler.check s' = .ok () := by
  unfold ready
  constructor
  · intro h
    obtain ⟨fields, hf, h⟩ := Except.bind_eq_ok.mp h
    obtain ⟨u, hc, h⟩ := Except.bind_eq_ok.mp h
    cases h
    exact ⟨⟨fields, hf, rfl⟩, hc⟩
  · rintro ⟨⟨fields, hf, rfl⟩, hc⟩
    refine Except.bind_eq_ok.mpr ⟨fields, hf, ?_⟩
    exact Except.bind_eq_ok.mpr ⟨(), hc, rfl⟩

/-- A step that is not made ready has a field that cannot be filled, or fails its check. -/
theorem ready_failsOnly {P : Cause → Prop}
    (hr : ∀ v, Except.FailsOnly P (Template.resolve store e.config.undefinedVariables v))
    (hc : ∀ s', e.HandedOver d store s s' → Except.FailsOnly P (d.handler.check s')) :
    Except.FailsOnly P (e.ready d store s) := by
  refine .bind (fieldsRead_failsOnly hr) fun fields hf => ?_
  exact .bind (hc _ ⟨fields, hf, rfl⟩) fun _ _ => .pure _

/-! ## The action of a step -/

theorem actionOf_eq_ok : e.actionOf s = .ok d ↔
    ∃ name, s.action? = some name ∧ e.registry.find? name = some d ∧ d.missing? s = none := by
  unfold actionOf Registry.lookup
  constructor
  · intro h
    split at h
    · rename_i name hn
      split at h
      · rename_i d' hd
        obtain ⟨_, hd', h⟩ := Except.bind_eq_ok.mp h
        cases hd'
        split at h
        · cases h
        · rename_i hm
          cases h
          exact ⟨name, hn, hd, hm⟩
      · cases h
    · cases h
  · rintro ⟨name, hn, hd, hm⟩
    simp only [hn, hd, bind, Except.bind, hm]
    rfl

theorem declares_of_required (h : field ∈ d.required) : d.declares field = true := by
  simp [Descriptor.declares, h]

theorem contains_of_missing?_eq_none (h : d.missing? s = none) (hf : field ∈ d.required) :
    s.contains field = true := by
  simpa using List.find?_eq_none.mp h field hf

/-! ## The two ends of a preparation -/

/-- `s` has been prepared for the action `d`, which sees `s'`. -/
structure Prepared (e : Engine) (s : Step) (d : Descriptor) (s' : Step) : Prop where
  action : e.actionOf s = .ok d
  handed : ∃ store, e.HandedOver d store s s'
  checked : d.handler.check s' = .ok ()

/-- Why `s` could not be prepared. -/
inductive Unprepared (e : Engine) (s : Step) : Cause → Prop
  | cancelled : Unprepared e s .cancelled
  | action {c : Cause} : e.actionOf s = .error c → Unprepared e s c
  | ready {d : Descriptor} {store : Store} {c : Cause} : e.actionOf s = .ok d →
      e.ready d store s = .error c → Unprepared e s c

/-- Preparing a step asks once whether the run has been cancelled, and reads the variables. -/
theorem prepare_keeps {γ : Type} {m : Watch γ} {g : γ} {Q : Descriptor × Step → γ → Prop}
    {E : Cause → γ → Prop} (hs : m.allows g (.poll (.step s)))
    (hr : m.Ignores (m.answered g (.poll (.step s)) false) .read)
    (hc : E .cancelled (m.answered g (.poll (.step s)) true))
    (hE : ∀ c, e.Unprepared s c → E c (m.answered g (.poll (.step s)) false))
    (hQ : ∀ d s', e.Prepared s d s' → Q (d, s') (m.answered g (.poll (.step s)) false)) :
    Attempt.Keeps m Q E g (e.prepare s) := by
  unfold prepare
  refine .bind (.access hs fun cancelled => ?_)
  cases cancelled with
  | true => exact .bind (.throw hc)
  | false =>
    refine .bind (.settled (fun d hd => ?_) fun c hc => hE c (.action hc))
    refine .bind (.access_ignored hr fun store => ?_)
    refine .bind (.settled (fun s' hs' => ?_) fun c hc => hE c (.ready hd hc))
    obtain ⟨hh, hc⟩ := ready_eq_ok.mp hs'
    exact .pure (hQ d s' ⟨hd, ⟨store, hh⟩, hc⟩)

end Engine

/-! ## Built-in actions -/

namespace Registry

theorem find?_builtins {name : String} {d : Descriptor} :
    builtins.find? name = some d ↔ ∃ k : Action.Kind, k.name = name ∧ d = .ofKind k := by
  constructor
  · intro h
    obtain ⟨k, -, rfl⟩ := List.mem_map.mp (List.mem_of_find?_eq_some h)
    exact ⟨k, by simpa [Descriptor.ofKind] using List.find?_some h, rfl⟩
  · rintro ⟨k, rfl, rfl⟩
    cases k <;> rfl

theorem find?_builtins_name (k : Action.Kind) : builtins.find? k.name = some (.ofKind k) :=
  find?_builtins.mpr ⟨k, rfl, rfl⟩

end Registry

/-- Built-in actions stand in the registry as they are. -/
def Registry.Genuine (r : Registry) : Prop :=
  ∀ d ∈ r.actions, ∀ k, d.handler = .builtin k → d = .ofKind k

theorem Registry.genuine_builtins : builtins.Genuine := by
  intro d hd k hk
  obtain ⟨k', -, rfl⟩ := List.mem_map.mp hd
  obtain rfl : k' = k := Handler.builtin.inj hk
  rfl

/-- Built-in actions with one name are one action. -/
theorem Action.Kind.name_inj {k k' : Kind} (h : k.name = k'.name) : k = k' := by
  have hd := Registry.find?_builtins_name k
  rw [h, Registry.find?_builtins_name] at hd
  exact (Handler.builtin.inj (congrArg Descriptor.handler (Option.some.inj hd))).symm

/-- An action reads its raw fields. -/
theorem Action.Kind.declares_of_raw (k : Kind) :
    ∀ field ∈ k.raw, field ≠ "action" ∧ (Descriptor.ofKind k).declares field = true := by
  cases k <;> decide

namespace Engine

variable {e : Engine} {k : Action.Kind} {d : Descriptor} {s s' : Step} {field : String}

/-- A built-in action that a step names is as it stands in the registry. -/
theorem eq_ofKind_of_actionOf (he : e.registry.Genuine) (hd : e.actionOf s = .ok d)
    (hk : d.handler = .builtin k) : d = .ofKind k := by
  obtain ⟨_, -, hfind, -⟩ := actionOf_eq_ok.mp hd
  exact he d (List.mem_of_find?_eq_some hfind) k hk

theorem actionOf_builtins (he : e.registry = .builtins) (h : e.actionOf s = .ok d) :
    ∃ k : Action.Kind, d = .ofKind k ∧ s.action? = some k.name := by
  obtain ⟨name, hn, hd, -⟩ := actionOf_eq_ok.mp h
  rw [he] at hd
  obtain ⟨k, rfl, rfl⟩ := Registry.find?_builtins.mp hd
  exact ⟨k, rfl, hn⟩

namespace Prepared

theorem missing?_eq_none (h : e.Prepared s d s') : d.missing? s = none := by
  obtain ⟨name, -, -, hm⟩ := actionOf_eq_ok.mp h.action
  exact hm

/-- A raw list of steps is handed over as it was written. -/
theorem children?_eq (h : e.Prepared s (.ofKind k) s') (hr : field ∈ k.raw) :
    s'.children? field = s.children? field := by
  obtain ⟨store, hh⟩ := h.handed
  obtain ⟨ha, hd⟩ := k.declares_of_raw field hr
  exact hh.children?_raw ha hd (List.contains_iff_mem.mpr hr)

theorem get?_eq_none (h : e.Prepared s d s') (ha : field ≠ "action") (hf : s.get? field = none) :
    s'.get? field = none := by
  obtain ⟨store, hh⟩ := h.handed
  exact hh.get?_eq_none ha (.inr hf)

/-- A required field is there, and handed over. -/
theorem contains (h : e.Prepared s d s') (ha : field ≠ "action") (hf : field ∈ d.required) :
    s'.contains field = true := by
  obtain ⟨store, hh⟩ := h.handed
  refine hh.contains ha (declares_of_required hf) ?_
  exact contains_of_missing?_eq_none h.missing?_eq_none hf

end Prepared

end Engine

end Stepwise
