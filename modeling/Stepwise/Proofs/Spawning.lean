import Stepwise.Proofs.Composition
import Stepwise.Proofs.Lifecycle
import Stepwise.Proofs.Minding
import Stepwise.Proofs.Substitution

/-!
# What is screened and what is started

A command is screened as it was written, and started as the words it is split into. The two agree
for a list of words, and for a line in which nothing is quoted and single spaces stand between the
words. A quote, a backslash or another blank comes between them: the screen then sees what the
program that is started never sees.

* `Command.Spec.Plain`: commands that are started as they were screened.
* `Command.joined_part`: the words of a plain command, joined, stand in what was screened.
* `Engine.AsksFor`: the command that a step asks for.
* `Watch.commands`: every command that is begun is asked for, and was screened.
* `Engine.commands_screened`: what is known of every command a script begins.
-/

namespace Stepwise

/-! ## Plain lines -/

namespace Command

open Text

/-- A quote or a backslash. -/
def isMark (c : Char) : Bool := c == '\'' || c == '"' || c == '\\'

/-- A line without quotes and backslashes, in which every blank is a single space. -/
structure PlainLine (cs : List Char) : Prop where
  unmarked : ∀ c ∈ cs, isMark c = false
  spaces : ∀ c ∈ cs, isAsciiBlank c = true → c = ' '
  single : ¬[' ', ' '] <:+: cs

/-- A command that is started as it is screened. -/
def Spec.Plain : Spec → Prop
  | .line text => PlainLine text.toList
  | .arguments _ => True

theorem PlainLine.part {cs cs' : List Char} (h : PlainLine cs) (hi : cs' <:+: cs) :
    PlainLine cs' where
  unmarked c hc := h.unmarked c (hi.subset hc)
  spaces c hc := h.spaces c (hi.subset hc)
  single hs := h.single (hs.trans hi)

/-- Without quotes and backslashes a token goes up to the next blank. -/
theorem tokenFrom_unmarked {cs : List Char} (h : ∀ c ∈ cs, isMark c = false) :
    tokenFrom {} cs =
      (cs.takeWhile (!isAsciiBlank ·), cs.dropWhile (!isAsciiBlank ·)) := by
  induction cs with
  | nil => rfl
  | cons c cs ih =>
    have hc := h c List.mem_cons_self
    simp only [isMark, Bool.or_eq_false_iff] at hc
    obtain ⟨⟨hsingle, hdouble⟩, hback⟩ := hc
    cases cs with
    | nil =>
      cases hb : isAsciiBlank c with
      | true => simp [tokenFrom, hb]
      | false => simp [tokenFrom, hb]
    | cons d cs =>
      have hrest := ih fun x hx => h x (List.mem_cons_of_mem _ hx)
      cases hb : isAsciiBlank c with
      | true => simp [tokenFrom, hb, hback]
      | false => simp [tokenFrom, hb, hback, hsingle, hdouble, hrest]

/-- Without quotes and backslashes nothing is taken from a token. -/
theorem unquoteFrom_unmarked {cs : List Char} (h : ∀ c ∈ cs, isMark c = false) :
    unquoteFrom none cs = some cs := by
  induction cs with
  | nil => rfl
  | cons c cs ih =>
    have hc := h c List.mem_cons_self
    simp only [isMark, Bool.or_eq_false_iff] at hc
    obtain ⟨⟨hsingle, hdouble⟩, hback⟩ := hc
    have hrest := ih fun x hx => h x (List.mem_cons_of_mem _ hx)
    rw [unquoteFrom.eq_def]
    simp [hsingle, hdouble, hback, hrest]

/-- Behind a word of a plain line there is one space at most. -/
theorem PlainLine.dropWhile_eq {b : Char} {cs : List Char} (h : PlainLine (b :: cs))
    (hb : isAsciiBlank b = true) : b = ' ' ∧ (b :: cs).dropWhile isAsciiBlank = cs := by
  obtain rfl := h.spaces b List.mem_cons_self hb
  refine ⟨rfl, ?_⟩
  rw [List.dropWhile_cons_of_pos hb]
  cases cs with
  | nil => rfl
  | cons d cs =>
    refine List.dropWhile_cons_of_neg fun hd => ?_
    obtain rfl := h.spaces d (List.mem_cons_of_mem _ List.mem_cons_self) hd
    exact h.single ⟨[], cs, rfl⟩

/-- The tokens of a plain line, joined by spaces, are what the line begins with. -/
theorem tokens_joined {cs : List Char} (h : PlainLine cs) :
    [' '].intercalate (tokens cs) <+: cs.dropWhile isAsciiBlank := by
  fun_induction tokens cs with
  | case1 cs hcs => exact List.nil_prefix
  | case2 cs c cs' hcs ih =>
    have hplain : PlainLine (c :: cs') := h.part (hcs ▸ (List.dropWhile_suffix _).isInfix)
    rw [tokenFrom_unmarked hplain.unmarked] at ih ⊢
    rw [hcs]
    generalize htoken : (c :: cs').takeWhile (!isAsciiBlank ·) = token at ih ⊢
    generalize hrest : (c :: cs').dropWhile (!isAsciiBlank ·) = rest at ih ⊢
    have hsplit : token ++ rest = c :: cs' := by
      rw [← htoken, ← hrest, List.takeWhile_append_dropWhile]
    have hjoin := ih (hplain.part (hrest ▸ (List.dropWhile_suffix _).isInfix))
    -- A last token is joined to nothing; behind the others the line has a single space as well.
    cases htokens : tokens rest with
    | nil =>
      rw [List.intercalate_singleton, ← hsplit]
      exact List.prefix_append token rest
    | cons next more =>
      cases rest with
      | nil => simp [tokens] at htokens
      | cons b rest =>
        have hb : isAsciiBlank b = true := by
          have := List.head?_dropWhile_not (!isAsciiBlank ·) (c :: cs')
          rw [hrest] at this
          simpa using this
        have hrestPlain : PlainLine (b :: rest) :=
          hplain.part (hrest ▸ (List.dropWhile_suffix _).isInfix)
        obtain ⟨rfl, hdrop⟩ := hrestPlain.dropWhile_eq hb
        rw [hdrop, htokens] at hjoin
        rw [List.intercalate_cons_cons, ← hsplit, ← List.singleton_append, ← List.append_assoc]
        exact (List.prefix_append_right_inj _).mpr hjoin

theorem unmarked_of_mem_tokens {cs token : List Char} (h : ∀ c ∈ cs, isMark c = false)
    (ht : token ∈ tokens cs) : ∀ c ∈ token, isMark c = false := by
  fun_induction tokens cs with
  | case1 cs hcs => cases ht
  | case2 cs c cs' hcs ih =>
    have hsub : ∀ x ∈ c :: cs', isMark x = false := fun x hx =>
      h x ((List.dropWhile_suffix isAsciiBlank).subset (hcs ▸ hx))
    rw [tokenFrom_unmarked hsub] at ih ht
    dsimp only at ih ht
    rcases List.mem_cons.mp ht with rfl | ht
    · exact fun x hx => hsub x ((List.takeWhile_prefix _).subset hx)
    · exact ih (fun x hx => hsub x ((List.dropWhile_suffix _).subset hx)) ht

/-- A line without quotes and backslashes is split into its tokens. -/
theorem split?_unmarked {line : String} (h : ∀ c ∈ line.toList, isMark c = false) :
    split? line = some ((tokens line.toList).map String.ofList) := by
  have hall : ∀ token ∈ tokens line.toList, ∀ c ∈ token, isMark c = false :=
    fun token ht => unmarked_of_mem_tokens h ht
  rw [split?]
  generalize tokens line.toList = ts at hall
  induction ts with
  | nil => rfl
  | cons token ts ih =>
    rw [List.mapM_cons, unquoteFrom_unmarked (hall token List.mem_cons_self),
      ih fun t ht => hall t (List.mem_cons_of_mem _ ht)]
    rfl

/-- For a line the program that its first word names is started with the other words. -/
theorem invocation_line {text program : String} {rest : List String}
    (h : split? text = some (program :: rest)) :
    (Spec.line text).invocation false = .ok ⟨program, rest⟩ := by
  rw [Spec.invocation, if_neg Bool.false_ne_true]
  dsimp only
  rw [h]

/-- The words of a plain command, joined by spaces, stand in the text that was screened. -/
theorem joined_part {spec : Spec} {command : Invocation} (hp : spec.Plain)
    (h : spec.invocation false = .ok command) :
    (String.intercalate " " command.words).toList <:+: spec.text.toList := by
  cases spec with
  | arguments parts =>
    cases parts with
    | nil => cases h
    | cons program rest =>
      cases h
      exact List.infix_rfl
  | line text =>
    have hp : PlainLine text.toList := hp
    -- Without marks the words of the line are its tokens.
    have hwords : command.words = (tokens text.toList).map String.ofList := by
      rw [Spec.invocation, if_neg Bool.false_ne_true] at h
      dsimp only at h
      rw [split?_unmarked hp.unmarked] at h
      split at h
      · rename_i hnone
        cases hnone
      · cases h
      · rename_i program rest hsome
        cases h
        exact (Option.some.inj hsome).symm
    have hid : String.toList ∘ String.ofList = id := funext fun _ => String.toList_ofList
    rw [String.toList_intercalate, hwords, List.map_map, hid, List.map_id]
    exact (tokens_joined hp).isInfix.trans (List.dropWhile_suffix _).isInfix

end Command

/-! ## The screen -/

namespace Screen

open Text

theorem occursIn_iff {needle cs : List Char} : occursIn needle cs = true ↔ needle <:+: cs := by
  constructor
  · intro h
    induction cs with
    | nil =>
      rw [occursIn, List.isEmpty_iff] at h
      exact h ▸ List.infix_rfl
    | cons c cs ih =>
      rw [occursIn, Bool.or_eq_true] at h
      rcases h with h | h
      · exact (List.isPrefixOf_iff_prefix.mp h).isInfix
      · exact (ih h).trans (List.suffix_cons c cs).isInfix
  · rintro ⟨before, after, rfl⟩
    exact occursIn_append needle before after

/-- What passes the screen holds no pattern, in no part of it. -/
theorem commandMatches_part {text part : String} (h : command text = .ok ())
    (hpart : part.toList <:+: text.toList) :
    ∀ pattern ∈ commandPatterns, commandMatches part pattern = false := by
  have hnone : commandPatterns.find? (commandMatches text) = none := by
    unfold command at h
    split at h
    · cases h
    · assumption
  intro pattern hp
  refine Bool.eq_false_iff.mpr fun hm => List.find?_eq_none.mp hnone pattern hp ?_
  obtain ⟨before, after, htext⟩ := hpart
  have hsmall : part.toList.flatMap smallForm <:+: text.toList.flatMap smallForm :=
    ⟨before.flatMap smallForm, after.flatMap smallForm, by
      rw [← List.flatMap_append, ← List.flatMap_append, htext]⟩
  exact occursIn_iff.mpr ((occursIn_iff.mp hm).trans hsmall)

end Screen

/-! ## Commands that are asked for -/

theorem Step.flag_eq_true {s : Step} {field : String} :
    s.flag field = true ↔ ∃ v, s.get? field = some v ∧ v.flag? = some true := by
  rw [flag, given?, Value.given?, get?]
  cases s.fields.get? field with
  | none => simp
  | some v =>
    cases v with
    | null => simp [Value.flag?]
    | bool | int | float | str | list | dict => simp [Option.getD_eq_iff]

/-- What is read as a command is the command in the field, and it passed the screen. -/
theorem Action.readCommand_eq_ok {s : Step} {a : Action} (h : readCommand s = .ok a) :
    ∃ spec timeout v, a = .command spec (s.flag "shell") timeout ∧ s.get? "command" = some v ∧
      Command.Spec.ofValue? v = some spec ∧ Screen.command spec.text = .ok () := by
  obtain ⟨_, -, h⟩ := Except.bind_eq_ok.mp h
  split at h
  · rename_i spec hspec
    obtain ⟨_, hscreen, h⟩ := Except.bind_eq_ok.mp h
    dsimp only at h
    split at h
    · obtain ⟨_, h, -⟩ := Except.bind_eq_ok.mp h
      cases h
    · cases h
      cases hv : s.get? "command" with
      | none =>
        rw [hv] at hspec
        cases hspec
      | some v =>
        rw [hv] at hspec
        exact ⟨spec, _, v, rfl, rfl, hspec, hscreen⟩
  · cases h

namespace Engine

variable {e : Engine} {s s' : Step} {store : Store} {spec spec' : Command.Spec}
  {shell shell' : Bool} {a : Action}

/-- The step asks for this command, started in a shell or not, when the variables stand so. -/
structure AsksFor (e : Engine) (s : Step) (store : Store) (spec : Command.Spec) (shell : Bool) :
    Prop where
  action : e.actionOf s = .ok (.ofKind .executeCommand)
  command : ∃ v, e.Fills store s "command" v ∧ Command.Spec.ofValue? v = some spec
  /-- A field that is not there asks for no shell, and neither does one with nothing in it. -/
  shell : shell = true ↔ ∃ v, e.Fills store s "shell" v ∧ v.flag? = some true

/-- A step asks for one command. -/
theorem AsksFor.unique (h : e.AsksFor s store spec shell) (h' : e.AsksFor s store spec' shell') :
    spec = spec' ∧ shell = shell' := by
  obtain ⟨v, hv, hspec⟩ := h.command
  obtain ⟨v', hv', hspec'⟩ := h'.command
  obtain rfl := hv.unique hv'
  have hshell : shell = true ↔ shell' = true := h.shell.trans h'.shell.symm
  exact ⟨Option.some.inj (hspec.symm.trans hspec'), Bool.eq_iff_iff.mpr hshell⟩

/-- A step that is made ready asks for the command that is read from it, which passed the screen. -/
theorem asksFor_of_read (hs : e.actionOf s = .ok (.ofKind .executeCommand))
    (h : e.HandedOver (.ofKind .executeCommand) store s s')
    (ha : Action.read .executeCommand s' = .ok a) :
    ∃ spec shell timeout, a = .command spec shell timeout ∧ e.AsksFor s store spec shell ∧
      Screen.command spec.text = .ok () := by
  obtain ⟨spec, timeout, v, rfl, hv, hspec, hscreen⟩ := Action.readCommand_eq_ok ha
  refine ⟨spec, _, timeout, rfl, ⟨hs, ⟨v, ?_, hspec⟩, ?_⟩, hscreen⟩
  · exact (h.get?_eq_some (by decide) (by decide) (by decide)).mp hv
  · rw [Step.flag_eq_true]
    refine exists_congr fun w => and_congr_left' ?_
    exact h.get?_eq_some (by decide) (by decide) (by decide)

/-- After these moves the command may be begun: a step that asks for it has just looked at the
variables, and it passed the screen. -/
def Asked (e : Engine) (P : Step → Prop) (moves : List Move) (command : Command.Invocation) :
    Prop :=
  ∃ front s store spec shell,
    moves = front ++ [.access (.poll (.step s)) false, .access .read store] ∧ P s ∧
      e.AsksFor s store spec shell ∧ spec.invocation shell = .ok command ∧
      Screen.command spec.text = .ok ()

end Engine

/-! ## Commands that are begun -/

/-- Lets a command be begun where it has been asked for. -/
def Watch.commands (e : Engine) (P : Step → Prop) : Watch (List Move) where
  allowsWait moves
    | .execute command _ => e.Asked P moves command
    | _ => True
  answered moves c x := moves ++ [.access c x]
  awaited moves w x := moves ++ [.wait w x]

namespace Engine

variable {σ : Type} {e : Engine} {r : Run} {P : Step → Prop} {s : Step}

/-- Among the actions only commands are minded. -/
theorem minds_commands : e.Minds (.commands e P) (fun _ => True) .executeCommand where
  plain _ _ _ _ := ⟨trivial, fun _ => trivial⟩
  waits w hw _ _ := by
    refine ⟨?_, fun _ => trivial⟩
    cases w with
    | execute => cases hw
    | _ => exact trivial
  records _ _ _ _ := ⟨trivial, fun _ => trivial⟩
  commands h := absurd rfl h
  steps _ _ _ _ _ _ _ := ⟨trivial, fun _ => trivial⟩
  lines _ _ _ := ⟨trivial, fun _ => trivial⟩

/-- A step that asks for a command begins no other, and this one where it has just looked at the
variables. -/
theorem dispatch_command_abides (hs : e.actionOf s = .ok (.ofKind .executeCommand)) (hP : P s) :
    (e.dispatch s).Abides (.commands e P) fun _ => True := by
  intro moves _
  rw [dispatch_eq_ready, hs]
  refine ⟨trivial, fun cancelled => ?_⟩
  cases cancelled with
  | true => exact trivial
  | false =>
    refine ⟨trivial, fun store => ?_⟩
    dsimp only
    cases hready : e.ready (.ofKind .executeCommand) store s with
    | error c => exact trivial
    | ok s' =>
      have hhandle : (e.handle (e.runField s.fields) (.ofKind .executeCommand) s').run.Keeps
          (.commands e P) (fun _ _ => True)
          (moves ++ [.access (.poll (.step s)) false] ++ [.access .read store]) := by
        show (Attempt.settled (Action.read .executeCommand s') >>= e.carryOut _).run.Keeps _ _ _
        cases hread : Action.read .executeCommand s' with
        | error c => exact trivial
        | ok a =>
          -- The step has just been made ready, so what is read is what it asks for.
          obtain ⟨hhanded, -⟩ := ready_eq_ok.mp hready
          obtain ⟨spec, shell, timeout, rfl, hasks, hscreen⟩ := asksFor_of_read hs hhanded hread
          refine carryOutCommand_keeps_invariant minds_commands timeout (fun _ _ hi => ?_) trivial
          refine ⟨⟨moves, s, store, spec, shell, ?_, hP, hasks, hi, hscreen⟩, fun _ => trivial⟩
          exact List.append_assoc ..
      exact .bind (hhandle.mono fun _ _ _ => ⟨trivial, fun _ => trivial⟩)

/-- A step that passes all checks begins its command. -/
theorem begins_command (answer : (w : Wait) → σ → w.Answer × σ) (w : σ) {s' : Step}
    {spec : Command.Spec} {shell : Bool} {timeout : Option Float} {command : Command.Invocation}
    (hr : r.cancelled = false)
    (ha : e.actionOf s = .ok (.ofKind .executeCommand))
    (hs : e.ready (.ofKind .executeCommand) r.store s = .ok s')
    (hread : Action.read .executeCommand s' = .ok (.command spec shell timeout))
    (hi : spec.invocation shell = .ok command) :
    ∃ seconds x after, (e.dispatch s).moves (.answering answer) r w =
      .access (.poll (.step s)) false :: .access .read r.store ::
        .wait (.execute command seconds) x :: after := by
  let wait : Wait := .execute command (timeout.getD e.config.commandTimeout)
  have hhandle : e.handle (e.runField s.fields) (.ofKind .executeCommand) s' =
      e.carryOutCommand spec shell timeout := by
    show (Attempt.settled (Action.read .executeCommand s') >>= fun a => _) = _
    rw [hread]
    rfl
  refine ⟨_, (answer wait w).1, ?_⟩
  rw [dispatch_eq_ready, ha]
  simp only [Process.moves, World.answering, Run.Access.perform, hr, Bool.false_eq_true, if_false,
    hs, hhandle]
  rw [carryOutCommand, hi]
  exact ⟨_, rfl⟩

/-- A step with a line that passes the screen as its command is made ready as it is. -/
theorem ready_line {store : Store} {line : String}
    (hline : Template.resolve store e.config.undefinedVariables (.str line) = .ok (.str line))
    (hblank : Text.isAllBlank line = false) (hscreen : Screen.command line = .ok ()) :
    let s : Step := ⟨[("action", .str "execute_command"), ("command", .str line)]⟩
    e.ready (.ofKind .executeCommand) store s = .ok s := by
  intro s
  have hfields : e.fieldsRead (.ofKind .executeCommand) store s.fields =
      (Template.resolve store e.config.undefinedVariables (.str line)).bind fun v =>
        .ok [("command", v)] := rfl
  rw [ready, hfields, hline]
  have hread : Action.readCommand s = .ok (.command (.line line) (s.flag "shell") none) := by
    have hspec : Command.Spec.ofValue? ((s.get? "command").getD .null) = some (.line line) := by
      show (if Text.isAllBlank line then none else some (Command.Spec.line line)) = _
      rw [hblank]
      rfl
    rw [Action.readCommand, show checkFields _ _ s = .ok () from rfl, hspec]
    show (Screen.command line >>= fun _ => _) = _
    rw [hscreen]
    rfl
  show ((Action.readCommand s).map fun _ => ()).bind (fun _ => .ok s) = _
  rw [hread]
  rfl

/-- A script of steps is launched, and then does what the first of them does. -/
theorem moves_execute_cons (answer : (w : Wait) → σ → w.Answer × σ) (w : σ)
    (hr : r.launched = false) (name : String) (s : Step) (ts : List Step) :
    ∃ later, (e.execute name (.steps (s :: ts))).moves (.answering answer) r w =
      [.access .launch false, .access .start (), .access (.announce (.executing 0)) (),
        .access (.enter 0) ()] ++
      ((e.dispatch s).moves (.answering answer)
        ((r.atStage ⟨true, true, .executing 0, r.error⟩).enter 0) w ++ later) := by
  let rest (o : Outcome) : Process (Except Outcome String) :=
    if o.isError then .done (.error o) else e.stepsFrom 1 ts
  let ending (result : Except Outcome String) : Process (Except Outcome String) :=
    (finish result).bind fun _ => .done result
  have hmoves := Process.moves_bind (.answering answer) ((e.dispatch s).bind rest) ending
    ((r.atStage ⟨true, true, .executing 0, r.error⟩).enter 0) w
  rw [Process.moves_bind _ (e.dispatch s), List.append_assoc] at hmoves
  rw [execute_eq]
  show ∃ later, Move.access .launch r.launched ::
    Process.moves _ (if r.launched then _ else _) _ _ = _
  rw [hr]
  exact ⟨_, congrArg (_ :: _ :: _ :: _ :: ·) hmoves⟩

/-- Every command that a script begins is the one that a step of the script asks for with the values
its fields have there, and it was screened as it was written. If it was written plainly, the words
that are started hold no pattern either, whatever their case. -/
theorem commands_screened (e : Engine) (he : e.registry.Genuine) (name : String) (script : Script)
    (world : World σ) (r : Run) (w : σ) {before after : List Move} {command : Command.Invocation}
    {seconds : Float} {x : Execution}
    (h : (e.execute name script).moves world r w =
      before ++ .wait (.execute command seconds) x :: after) :
    ∃ front s store spec shell,
      before = front ++ [.access (.poll (.step s)) false, .access .read store] ∧
      script.Has s ∧ e.AsksFor s store spec shell ∧ spec.invocation shell = .ok command ∧
      (∀ pattern ∈ Screen.commandPatterns, Screen.commandMatches spec.text pattern = false) ∧
      (shell = false → spec.Plain → ∀ pattern ∈ Screen.commandPatterns,
        Screen.commandMatches (String.intercalate " " command.words) pattern = false) := by
  have habides : (e.execute name script).Abides (.commands e script.Has) fun _ => True :=
    execute_abides minds_commands he name fun s hscript hs => dispatch_command_abides hs hscript
  have hpermits := (habides [] trivial).permits (h ▸ Process.path_moves world _ r w)
  rw [show before.foldl (Watch.commands e script.Has).after [] = before from
    Watch.foldl_noting before []] at hpermits
  obtain ⟨front, s, store, spec, shell, hmoves, hscript, hasks, hi, hscreen⟩ := hpermits
  refine ⟨front, s, store, spec, shell, hmoves, hscript, hasks, hi, ?_, ?_⟩
  · exact Screen.commandMatches_part hscreen List.infix_rfl
  · rintro rfl hplain
    exact Screen.commandMatches_part hscreen (Command.joined_part hplain hi)

/-- A line of three words. -/
theorem commands_screened_line :
    let s : Step := ⟨[("action", .str "execute_command"), ("command", .str "echo hello world")]⟩
    let e : Engine := {}
    let r := Run.create "line" {} e.config
    let command : Command.Invocation := ⟨"echo", ["hello", "world"]⟩
    let spec : Command.Spec := .line "echo hello world"
    e.registry.Genuine ∧ spec.Plain ∧ e.AsksFor s [] spec false ∧
      spec.invocation false = .ok command ∧
      ∃ front seconds x after,
        (e.execute "line" (.steps [s])).moves (.answering Wait.quiet) r () =
          front ++ [.access (.poll (.step s)) false, .access .read []] ++
            .wait (.execute command seconds) x :: after ∧
        (∀ pattern ∈ Screen.commandPatterns, Screen.commandMatches spec.text pattern = false) ∧
        ∀ pattern ∈ Screen.commandPatterns,
          Screen.commandMatches (String.intercalate " " command.words) pattern = false := by
  intro s e r command spec
  have hline : Template.resolve [] .preserve (.str "echo hello world") =
      .ok (.str "echo hello world") :=
    Template.resolve_str_plain [] .preserve (Template.plain_of_dollar_notMem (by decide))
  have hready : e.ready (.ofKind .executeCommand) [] s = .ok s := ready_line hline rfl rfl
  have hasks : e.AsksFor s [] spec false :=
    { action := rfl
      command := ⟨.str "echo hello world", ⟨_, rfl, hline⟩, rfl⟩
      shell := by simp [Fills, show s.get? "shell" = none from rfl] }
  have hplain : spec.Plain := by
    have hchars : "echo hello world".toList =
      ['e', 'c', 'h', 'o', ' ', 'h', 'e', 'l', 'l', 'o', ' ', 'w', 'o', 'r', 'l', 'd'] := rfl
    show Command.PlainLine "echo hello world".toList
    rw [hchars]
    exact
      { unmarked := by simp [Command.isMark]
        spaces := by simp [Text.isAsciiBlank]
        single := by decide }
  have hi : (Command.Spec.line "echo hello world").invocation false =
      .ok ⟨"echo", ["hello", "world"]⟩ := Command.invocation_line (by decide +kernel)
  obtain ⟨later, hexecute⟩ := moves_execute_cons Wait.quiet () (r := r) rfl "line" s []
  obtain ⟨seconds, x, after, hmoves⟩ := begins_command Wait.quiet ()
    (r := (r.atStage ⟨true, true, .executing 0, r.error⟩).enter 0) rfl hasks.action hready rfl hi
  let front : List Move := [.access .launch false, .access .start (),
    .access (.announce (.executing 0)) (), .access (.enter 0) ()]
  have hbegun : (e.execute "line" (.steps [s])).moves (.answering Wait.quiet) r () =
      front ++ [.access (.poll (.step s)) false, .access .read []] ++
        .wait (.execute command seconds) x :: (after ++ later) := by
    rw [hexecute, hmoves]
    rfl
  refine ⟨Registry.genuine_builtins, hplain, hasks, hi, front, seconds, x, _, hbegun, ?_⟩
  obtain ⟨front', s', store', spec', shell', hbefore, -, hasks', -, hscreened, hwords⟩ :=
    commands_screened e Registry.genuine_builtins "line" (.steps [s]) (.answering Wait.quiet) r ()
      hbegun
  have hlast := List.append_inj_right' hbefore rfl
  obtain ⟨rfl, rfl⟩ : s = s' ∧ [] = store' := by simpa using hlast
  obtain ⟨rfl, rfl⟩ := hasks.unique hasks'
  exact ⟨hscreened, hwords rfl hplain⟩

/-- Quotes take a command past the screen that is refused without them. -/
theorem quoted_command_begins :
    let step (command : Value) : Step :=
      ⟨[("action", .str "execute_command"), ("command", command)]⟩
    let e : Engine := {}
    let r := Run.create "quoted" {} e.config
    let words := ["echo", "rm", "-rf", "/"]
    (∃ seconds x, .wait (.execute ⟨"echo", ["rm", "-rf", "/"]⟩ seconds) x ∈
        (e.dispatch (step (.str "echo rm \"-rf\" /"))).moves (.answering Wait.quiet) r ()) ∧
      (∃ pattern ∈ Screen.commandPatterns,
        Screen.commandMatches (String.intercalate " " words) pattern = true) ∧
      ((e.dispatch (step (.list (words.map .str)))).run (.answering Wait.quiet) r ()).1.category =
        some .unsafeCommand := by
  intro step e r words
  have hline : Template.resolve [] .preserve (.str "echo rm \"-rf\" /") =
      .ok (.str "echo rm \"-rf\" /") :=
    Template.resolve_str_plain [] .preserve (Template.plain_of_dollar_notMem (by decide))
  have hlist : Template.resolve [] .preserve (.list (words.map .str)) =
      .ok (.list (words.map .str)) := by
    refine Template.resolve_list_plain [] .preserve fun word hword => ?_
    refine Template.plain_of_dollar_notMem ?_
    revert word
    decide
  have hfields (v : Value) : e.fieldsRead (.ofKind .executeCommand) [] (step v).fields =
      (Template.resolve [] .preserve v).bind fun v => .ok [("command", v)] := rfl
  have hmatch : Screen.commandMatches (String.intercalate " " ["echo", "rm", "-rf", "/"]) "rm -rf" =
      true := by decide +kernel
  refine ⟨?_, ⟨"rm -rf", by decide, hmatch⟩, ?_⟩
  · have hready : e.ready (.ofKind .executeCommand) r.store (step (.str "echo rm \"-rf\" /")) =
        .ok (step (.str "echo rm \"-rf\" /")) := ready_line hline rfl rfl
    have hi : (Command.Spec.line "echo rm \"-rf\" /").invocation false =
        .ok ⟨"echo", ["rm", "-rf", "/"]⟩ := Command.invocation_line (by decide +kernel)
    obtain ⟨seconds, x, after, hmoves⟩ := begins_command Wait.quiet () rfl rfl hready rfl hi
    refine ⟨seconds, x, ?_⟩
    rw [hmoves]
    exact List.mem_cons_of_mem _ (List.mem_cons_of_mem _ List.mem_cons_self)
  · have hscreen : Screen.command (String.intercalate " " words) =
        .error (.unsafeCommand "rm -rf") := by decide +kernel
    have hready : e.ready (.ofKind .executeCommand) r.store (step (.list (words.map .str))) =
        .error (.unsafeCommand "rm -rf") := by
      rw [ready, show r.store = [] from rfl, hfields, hlist]
      show ((Screen.command (String.intercalate " " words) >>= fun _ => _).map _ >>= fun _ => _) = _
      rw [hscreen]
      rfl
    rw [run_dispatch_unready rfl rfl hready]
    rfl

end Engine

end Stepwise
