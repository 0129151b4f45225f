import Mathlib.Data.List.Forall2
import Stepwise.Redact

/-!
# No secret is left

After all passes over a text, no value stands behind a name that is assigned a secret: wherever the
name occurs, in any case, the text ends there, or goes on with a blank, or with the mark of what was
replaced and then a blank or its end. A pass cannot bring back what an earlier one removed: it only
puts marks into the text, in which no name occurs, and no name can go on from one into a mark or out
of it.

* `Cleared`: a text in which every secret is withheld.
* `Replaces`: what a pass makes of a text, whatever it scans it for.
* `Replaces.cleared`: a pass clears its own names, and keeps those clear that were.
* `cleared_redactChars`: the text in the end.
* `Cleared.take`: what is left of such a text before a cut.
* `replaceFrom_behind`: it makes no difference what of a name is taken along before its last word.
-/

namespace Stepwise.Redact

open Text

/-! ## Names and what follows them -/

/-- The word reads as the name, letter by letter, in any case. -/
def Spells (name word : List Char) : Prop :=
  List.Forall₂ (fun p c => isLetter p c = true) name word

/-- The last words of names to which secrets are assigned. -/
def secretWords : List (List Char) := ["key=", "token=", "secret=", "password="].map String.toList

/-- All names to which secrets are assigned. -/
def secretNames : List (List Char) := "database_url=".toList :: secretWords

/-- The characters have come to their end, or go on with a blank. -/
def Ends (cs : List Char) : Prop := ∀ c ∈ cs.head?, isBlank c = true

/-- Where a value could begin, there is none, or the mark stands in its place. -/
def Withheld (cs : List Char) : Prop := Ends cs ∨ ∃ rest, cs = mark ++ rest ∧ Ends rest

/-- Wherever one of the names occurs, its value is withheld. -/
def Cleared (names : List (List Char)) (cs : List Char) : Prop :=
  ∀ before word rest, cs = before ++ word ++ rest →
    ∀ name ∈ names, Spells name word → Withheld rest

theorem Ends.of_append {cs cs' : List Char} (h : Ends (cs ++ cs')) : Ends cs := by
  cases cs with
  | nil => exact fun c hc => nomatch hc
  | cons c cs => exact h

theorem Cleared.of_append {names : List (List Char)} {before cs : List Char}
    (h : Cleared names (before ++ cs)) : Cleared names cs := by
  rintro before' word rest rfl
  exact h (before ++ before') word rest (by simp only [List.append_assoc])

/-- What stands before a cut: a secret is withheld there as well, but the mark may be cut. -/
theorem Cleared.take {names : List (List Char)} {cs before word rest : List Char}
    (h : Cleared names cs) {limit : Nat} (hcs : cs.take limit = before ++ word ++ rest)
    {name : List Char} (hname : name ∈ names) (hword : Spells name word) :
    Withheld rest ∨ rest <+: mark := by
  have hall : cs = before ++ word ++ (rest ++ cs.drop limit) := by
    rw [← List.append_assoc, ← hcs, List.take_append_drop]
  rcases h _ _ _ hall name hname hword with hrest | ⟨tail, htail, hrest⟩
  · exact .inl (.inl (Ends.of_append hrest))
  · rcases List.append_eq_append_iff.mp htail with ⟨more, hmark, -⟩ | ⟨more, rfl, rfl⟩
    · exact .inr ⟨more, hmark.symm⟩
    · exact .inl (.inr ⟨more, rfl, Ends.of_append hrest⟩)

theorem after?_eq_some_iff {name cs rest : List Char} :
    after? name cs = some rest ↔ ∃ word, Spells name word ∧ cs = word ++ rest := by
  fun_induction after? name cs with
  | case1 cs =>
    constructor
    · rintro ⟨⟩
      exact ⟨[], .nil, rfl⟩
    · rintro ⟨word, hword, rfl⟩
      cases hword
      rfl
  | case2 p ps =>
    refine iff_of_false (fun h => nomatch h) ?_
    rintro ⟨word, hword, h⟩
    cases hword
    cases h
  | case3 p ps c cs hp ih =>
    rw [ih]
    constructor
    · rintro ⟨word, hword, rfl⟩
      exact ⟨c :: word, .cons hp hword, rfl⟩
    · rintro ⟨word, hword, h⟩
      cases hword with
      | cons _ hword =>
        obtain ⟨rfl, rfl⟩ := List.cons.inj h
        exact ⟨_, hword, rfl⟩
  | case4 p ps c cs hp =>
    refine iff_of_false (fun h => nomatch h) ?_
    rintro ⟨word, hword, h⟩
    cases hword with
    | cons hc _ =>
      obtain ⟨rfl, -⟩ := List.cons.inj h
      exact hp hc

/-! ## Assignments -/

/-- A name and the equals sign behind it. No mark can be a part of it. -/
def IsAssignment (word : List Char) : Prop :=
  ∃ stem, word = stem ++ ['='] ∧ ∀ c ∈ stem, c ≠ '=' ∧ c ≠ '<' ∧ c ≠ '>'

theorem isAssignment_of_mem_secretNames {name : List Char} (h : name ∈ secretNames) :
    IsAssignment name := by
  have hall : ∀ name ∈ secretNames, name = name.dropLast ++ ['='] ∧
      name.dropLast.all (fun c => c != '=' && c != '<' && c != '>') = true := by decide
  obtain ⟨hname, hstem⟩ := hall name h
  refine ⟨name.dropLast, hname, fun c hc => ?_⟩
  simpa [and_assoc] using List.all_eq_true.mp hstem c hc

/-- Only letters have another case. -/
theorem isLetter_iff_eq {p c : Char} (hc : c.toNat < 65) : isLetter p c = true ↔ p = c := by
  have hlower : c.toLower = c := by
    refine Char.toNat_inj.mp ?_
    rw [toNat_toLower, if_neg (by omega)]
  have hkelvin : c ≠ '\u212a' := by
    rintro rfl
    exact absurd hc (by decide)
  have hlong : c ≠ '\u017f' := by
    rintro rfl
    exact absurd hc (by decide)
  simp only [isLetter, hlower, hkelvin, hlong, Bool.or_eq_true, Bool.and_eq_true, beq_iff_eq,
    and_false, or_false]
  exact eq_comm

/-- No letter is another case of what is none. -/
theorem eq_of_isLetter {p c : Char} (hp : p.toNat < 65) (h : isLetter p c = true) : c = p := by
  have hk : p ≠ 'k' := by
    rintro rfl
    exact absurd hp (by decide)
  have hs : p ≠ 's' := by
    rintro rfl
    exact absurd hp (by decide)
  simp only [isLetter, hk, hs, Bool.or_eq_true, Bool.and_eq_true, beq_iff_eq, false_and,
    or_false] at h
  have hlower := toNat_toLower c
  rw [h] at hlower
  refine Char.toNat_inj.mp ?_
  split at hlower <;> omega

theorem IsAssignment.cons {c : Char} {word : List Char} (hc : c ≠ '=' ∧ c ≠ '<' ∧ c ≠ '>')
    (h : IsAssignment word) : IsAssignment (c :: word) := by
  obtain ⟨stem, rfl, hstem⟩ := h
  exact ⟨c :: stem, rfl, List.forall_mem_cons.mpr ⟨hc, hstem⟩⟩

/-- What reads as an assignment is one. -/
theorem IsAssignment.of_spells {name word : List Char} (h : IsAssignment name)
    (hword : Spells name word) : IsAssignment word := by
  obtain ⟨stem, rfl, hstem⟩ := h
  induction stem generalizing word with
  | nil =>
    cases hword with
    | cons hc hword =>
      cases hword
      exact ⟨[], congrArg (fun c => [c]) (eq_of_isLetter (by decide) hc), hstem⟩
  | cons p stem ih =>
    obtain ⟨hp, hstem⟩ := List.forall_mem_cons.mp hstem
    cases hword with
    | @cons _ c _ _ hc hword =>
      refine .cons ⟨?_, ?_, ?_⟩ (ih hstem hword)
      all_goals rintro rfl
      · exact hp.1 ((isLetter_iff_eq (by decide)).mp hc)
      · exact hp.2.1 ((isLetter_iff_eq (by decide)).mp hc)
      · exact hp.2.2 ((isLetter_iff_eq (by decide)).mp hc)

/-- What is left of an assignment is nothing or an assignment. -/
theorem IsAssignment.of_append {start tail : List Char} (h : IsAssignment (start ++ tail)) :
    tail = [] ∨ IsAssignment tail := by
  obtain ⟨stem, hstem, hchars⟩ := h
  rcases List.eq_nil_or_concat tail with rfl | ⟨tail, last, rfl⟩
  · exact .inl rfl
  · rw [List.concat_eq_append, ← List.append_assoc] at hstem
    obtain ⟨rfl, hlast⟩ := List.append_inj' hstem rfl
    refine .inr ⟨tail, by rw [List.concat_eq_append, hlast], ?_⟩
    exact fun c hc => hchars c (List.mem_append_right _ hc)

/-- No assignment begins with the mark, and none goes on from it. -/
theorem IsAssignment.not_in_mark {t word rest rest' : List Char} (ht : '=' ∉ t)
    (hword : IsAssignment word) : t ++ '>' :: rest ≠ word ++ rest' := by
  obtain ⟨stem, rfl, hstem⟩ := hword
  intro h
  induction t generalizing stem with
  | nil =>
    cases stem with
    | nil => cases h
    | cons c stem => exact (hstem c List.mem_cons_self).2.2 (List.cons.inj h).1.symm
  | cons c t ih =>
    cases stem with
    | nil => exact ht ((List.cons.inj h).1 ▸ List.mem_cons_self)
    | cons d stem =>
      exact ih (List.not_mem_of_not_mem_cons ht) stem (fun c hc => hstem c (.tail _ hc))
        (List.cons.inj h).2

/-- In front of a mark there is one assignment at most. -/
theorem IsAssignment.eq_of_append {word word' rest rest' : List Char} (hword : IsAssignment word)
    (hword' : IsAssignment word') (h : word ++ '<' :: rest = word' ++ rest') :
    word' = word ∧ rest' = '<' :: rest := by
  obtain ⟨stem, rfl, hstem⟩ := hword
  obtain ⟨stem', rfl, hstem'⟩ := hword'
  induction stem generalizing stem' with
  | nil =>
    cases stem' with
    | nil => exact ⟨rfl, (List.cons.inj h).2.symm⟩
    | cons d stem' => exact absurd (List.cons.inj h).1.symm (hstem' d List.mem_cons_self).1
  | cons c stem ih =>
    cases stem' with
    | nil => exact absurd (List.cons.inj h).1 (hstem c List.mem_cons_self).1
    | cons d stem' =>
      obtain ⟨rfl, htail⟩ := List.cons.inj h
      obtain ⟨hw, hr⟩ := ih (fun c hc => hstem c (.tail _ hc)) stem'
        (fun c hc => hstem' c (.tail _ hc)) htail
      exact ⟨congrArg (c :: ·) hw, hr⟩

/-- In a text that begins with an assignment and the mark behind it, another assignment is that one
or stands behind the mark. -/
theorem IsAssignment.in_marked {word word' before out rest : List Char}
    (hword' : IsAssignment word') (hword : IsAssignment word)
    (h : word' ++ mark ++ out = before ++ word ++ rest) :
    rest = mark ++ out ∨ ∃ more, out = more ++ word ++ rest := by
  rw [List.append_assoc before] at h
  -- The other assignment ends behind the mark, within it, or before it.
  rcases List.append_eq_append_iff.mp h with ⟨more, -, hout⟩ | ⟨more, hmark, hrest⟩
  · exact .inr ⟨more, by rw [hout, List.append_assoc]⟩
  rcases List.append_eq_append_iff.mp hmark with ⟨start, -, hmore⟩ | ⟨tail, rfl, rfl⟩
  · rcases List.eq_nil_or_concat more with rfl | ⟨t, last, rfl⟩
    · exact .inr ⟨[], hrest.symm⟩
    · rw [List.concat_eq_append, ← List.append_assoc] at hmore
      have hmark : mark.dropLast ++ ['>'] = start ++ t ++ [last] := hmore
      obtain ⟨ht, hlast⟩ := List.append_inj' hmark rfl
      obtain rfl : '>' = last := List.singleton_inj.mp hlast
      -- The mark has no equals sign, so no assignment ends in it.
      have hequals : '=' ∉ t := fun hmem =>
        absurd (ht ▸ List.mem_append_right start hmem) (show '=' ∉ mark.dropLast by decide)
      refine (hword.not_in_mark hequals (?_ : t ++ '>' :: out = word ++ rest)).elim
      rw [hrest, List.concat_eq_append, List.append_assoc, List.singleton_append]
  · rcases hword'.of_append with rfl | htail
    · have hequals : '=' ∉ mark.dropLast := by decide
      exact (hword.not_in_mark hequals hrest.symm).elim
    · have hopen : tail ++ '<' :: (mark.tail ++ out) = word ++ rest := by
        rw [hrest, List.append_assoc, ← List.cons_append]
        rfl
      exact .inl (htail.eq_of_append hword hopen).2

/-! ## A pass -/

/-- What a pass for the names makes of a text: a character is kept where no value stands behind a
name, and behind a name what is replaced goes as far as a blank. -/
inductive Replaces (names : List (List Char)) : List Char → List Char → Prop where
  | nil : Replaces names [] []
  | keep {c : Char} {cs out : List Char} :
    (∀ name ∈ names, ∀ word rest, Spells name word → c :: cs = word ++ rest → Ends rest) →
      Replaces names cs out → Replaces names (c :: cs) (c :: out)
  | hide {name word value after out : List Char} :
    name ∈ names → Spells name word → Ends after → Replaces names after out →
      Replaces names (word ++ value ++ after) (word ++ mark ++ out)

section

variable {names : List (List Char)} (hnames : ∀ name ∈ names, IsAssignment name)

include hnames

/-- Where a text ends or goes on with a blank, so does what a pass makes of it. -/
theorem Replaces.ends {cs out : List Char} (h : Replaces names cs out) (hcs : Ends cs) :
    Ends out := by
  cases h with
  | nil => exact hcs
  | keep => exact hcs
  | hide hname hword =>
    obtain ⟨stem, rfl, -⟩ := (hnames _ hname).of_spells hword
    cases stem with
    | nil => exact hcs
    | cons c stem => exact hcs

/-- A pass leaves a mark as it is. -/
theorem Replaces.of_mark {t cs out : List Char} (ht : '=' ∉ t)
    (h : Replaces names (t ++ '>' :: cs) out) :
    ∃ out', out = t ++ '>' :: out' ∧ Replaces names cs out' := by
  generalize hall : t ++ '>' :: cs = all at h
  induction h generalizing t with
  | nil => exact absurd hall (by simp)
  | @keep c cs' out' _ h ih =>
    cases t with
    | nil =>
      obtain ⟨rfl, rfl⟩ := List.cons.inj hall
      exact ⟨out', rfl, h⟩
    | cons d t =>
      obtain ⟨rfl, hrest⟩ := List.cons.inj hall
      obtain ⟨out'', rfl, hout⟩ := ih (List.not_mem_of_not_mem_cons ht) hrest
      exact ⟨out'', rfl, hout⟩
  | hide hname hword =>
    rw [List.append_assoc] at hall
    exact absurd hall (((hnames _ hname).of_spells hword).not_in_mark ht)

/-- What stands behind an assignment is withheld, or it stood there before the pass. -/
theorem Replaces.of_word {cs out word rest : List Char} (h : Replaces names cs out)
    (hword : word = [] ∨ IsAssignment word) (hout : out = word ++ rest) :
    Withheld rest ∨ ∃ rest', cs = word ++ rest' ∧ Replaces names rest' rest := by
  -- By induction on the pass. Of the assignment the pass keeps character by character, and it
  -- cannot hide a name within it.
  induction h generalizing word with
  | nil =>
    obtain ⟨rfl, rfl⟩ := List.append_eq_nil_iff.mp hout.symm
    exact .inr ⟨[], rfl, .nil⟩
  | @keep c cs out hc h ih =>
    cases word with
    | nil =>
      obtain rfl : c :: out = rest := hout
      exact .inr ⟨c :: cs, rfl, .keep hc h⟩
    | cons d word =>
      obtain ⟨rfl, htail⟩ := List.cons.inj hout
      have hassign : IsAssignment ([c] ++ word) := hword.resolve_left (List.cons_ne_nil c word)
      rcases ih hassign.of_append htail with hrest | ⟨rest', rfl, hrest⟩
      · exact .inl hrest
      · exact .inr ⟨rest', rfl, hrest⟩
  | @hide name word' value after out hname hword' hafter h =>
    rcases hword with rfl | hword
    · obtain rfl : word' ++ mark ++ out = rest := hout
      exact .inr ⟨_, rfl, .hide hname hword' hafter h⟩
    · obtain ⟨-, rfl⟩ := ((hnames _ hname).of_spells hword').eq_of_append hword
        ((List.append_assoc ..).symm.trans hout)
      exact .inl (.inr ⟨out, rfl, h.ends hnames hafter⟩)

/-- An assignment in what a pass made of a text: nothing is left behind it if the pass looks for
it, or if nothing was before. -/
theorem Replaces.withheld {also : List (List Char)} (halso : ∀ name ∈ also, IsAssignment name)
    {cs name word rest : List Char} (h : Replaces names cs (word ++ rest))
    (hshut : ∀ name ∈ names, ∀ word rest, Spells name word → cs = word ++ rest → Ends rest)
    (hcs : Cleared also cs) (hname : name ∈ names ++ also) (hword : Spells name word) :
    Withheld rest := by
  have hassign : ∀ name ∈ names ++ also, IsAssignment name := fun name hname =>
    (List.mem_append.mp hname).elim (hnames name) (halso name)
  rcases h.of_word hnames (.inr ((hassign name hname).of_spells hword)) rfl with
    hrest | ⟨rest', rfl, hrest⟩
  · exact hrest
  · rcases List.mem_append.mp hname with hname | hname
    · exact .inl (hrest.ends hnames (hshut name hname word rest' hword rfl))
    · rcases hcs [] word rest' rfl name hname hword with hends | ⟨tail, rfl, hends⟩
      · exact .inl (hrest.ends hnames hends)
      · obtain ⟨out, rfl, htail⟩ := hrest.of_mark hnames (show '=' ∉ mark.dropLast by decide)
        exact .inr ⟨out, rfl, htail.ends hnames hends⟩

/-- A pass clears its own names, and keeps those clear that were. -/
theorem Replaces.cleared {also : List (List Char)} (halso : ∀ name ∈ also, IsAssignment name)
    {cs out : List Char} (h : Replaces names cs out) (hcs : Cleared also cs) :
    Cleared (names ++ also) out := by
  have hassign : ∀ name ∈ names ++ also, IsAssignment name := fun name hname =>
    (List.mem_append.mp hname).elim (hnames name) (halso name)
  induction h with
  | nil =>
    intro before word rest hall name hname hword
    obtain ⟨hall, rfl⟩ := List.append_eq_nil_iff.mp hall.symm
    exact .inl fun c hc => nomatch hc
  -- A character that is kept: an assignment that begins there would have been replaced.
  | @keep c cs out hc h ih =>
    intro before word rest hall name hname hword
    cases before with
    | nil =>
      have hpass : Replaces names (c :: cs) (word ++ rest) := hall ▸ .keep hc h
      exact hpass.withheld hnames halso hc hcs hname hword
    | cons d before =>
      obtain ⟨rfl, hout⟩ := List.cons.inj hall
      have hcs' : Cleared also ([c] ++ cs) := hcs
      exact ih hcs'.of_append before word rest hout name hname hword
  -- What was hidden is behind its mark, and what follows is clear by induction.
  | @hide name' word' value after out hname' hword' hafter h ih =>
    intro before word rest hall name hname hword
    rcases ((hnames name' hname').of_spells hword').in_marked
      ((hassign name hname).of_spells hword) hall with rfl | ⟨more, hout⟩
    · exact .inr ⟨out, rfl, h.ends hnames hafter⟩
    · exact ih (Cleared.of_append hcs) more word rest hout name hname hword

end

/-- A secret that is found: a spelling of its name, and a value up to a blank. -/
theorem secret_eq_some {name cs : List Char} {kept dropped : Nat}
    (h : secret name unbroken cs = some (kept, dropped)) :
    ∃ word value after, Spells name word ∧ cs = word ++ value ++ after ∧ Ends after ∧
      kept = word.length ∧ dropped = value.length ∧ 0 < dropped := by
  obtain ⟨rest, hrest, hvalue⟩ := Option.bind_eq_some_iff.mp h
  obtain ⟨word, hword, rfl⟩ := after?_eq_some_iff.mp hrest
  dsimp only at hvalue
  split at hvalue
  · cases hvalue
  · rename_i hne
    cases hvalue
    refine ⟨word, rest.takeWhile (!isBlank ·), rest.dropWhile (!isBlank ·), hword, ?_, ?_,
      hword.length_eq, rfl, Nat.pos_of_ne_zero hne⟩
    · rw [List.append_assoc, List.takeWhile_append_dropWhile]
    · intro c hc
      have hhead := List.head?_dropWhile_not (!isBlank ·) rest
      rw [Option.mem_def.mp hc] at hhead
      simpa using hhead

/-- Where no secret is found, no value stands behind the name. -/
theorem ends_of_secret_eq_none {name word rest : List Char}
    (h : secret name unbroken (word ++ rest) = none) (hword : Spells name word) : Ends rest := by
  have hvalue : unbroken rest = 0 := by
    simpa [secret, after?_eq_some_iff.mpr ⟨word, hword, rfl⟩] using h
  cases rest with
  | nil => exact fun c hc => nomatch hc
  | cons c rest =>
    rintro _ ⟨⟩
    by_contra hc
    rw [unbroken, List.takeWhile_cons, if_pos (by simpa using hc)] at hvalue
    cases hvalue

/-- The pattern of a pass that looks for values assigned to one of the names. -/
def assigned (names : List (List Char)) : Pattern := fun cs =>
  names.findSome? fun name => secret name unbroken cs

theorem replaces_replaceFrom (names : List (List Char)) (skip : Nat) (cs : List Char) :
    Replaces names (cs.drop skip) (replaceFrom (assigned names) skip cs) := by
  fun_induction replaceFrom (assigned names) skip cs with
  | case1 skip => simpa using .nil
  | case2 skip c cs ih => exact ih
  | case3 c cs kept dropped hfound ih =>
    obtain ⟨name, hname, hsecret⟩ := List.exists_of_findSome?_eq_some hfound
    obtain ⟨word, value, after, hword, hcs, hafter, rfl, rfl, hpos⟩ := secret_eq_some hsecret
    have hdrop : cs.drop (word.length + value.length - 1) = after := by
      rw [← List.drop_succ_cons, Nat.sub_add_cancel (by omega), hcs, ← List.length_append,
        List.drop_left]
    rw [hdrop] at ih
    rw [List.drop_zero, hcs, List.append_assoc word value, List.take_left, ← List.append_assoc]
    exact .hide hname hword hafter ih
  | case4 c cs hnone ih =>
    refine .keep ?_ ih
    intro name hname word rest hword hcs
    exact ends_of_secret_eq_none (hcs ▸ List.findSome?_eq_none_iff.mp hnone name hname) hword

/-- The last two passes look for assigned secrets. -/
theorem exists_redactChars_eq (cs : List Char) : ∃ earlier, redactChars cs =
    replaceFrom (assigned ["database_url=".toList]) 0
      (replaceFrom (assigned secretWords) 0 earlier) := by
  have hlast : assigned ["database_url=".toList] = secret "database_url=".toList unbroken :=
    funext fun _ => List.findSome?_singleton
  rw [hlast]
  exact ⟨_, rfl⟩

/-- No assigned secret is left in a text after all passes. -/
theorem cleared_redactChars (cs : List Char) : Cleared secretNames (redactChars cs) := by
  obtain ⟨earlier, hcs⟩ := exists_redactChars_eq cs
  rw [hcs]
  have hwords : ∀ name ∈ secretWords, IsAssignment name := fun name hname =>
    isAssignment_of_mem_secretNames (.tail _ hname)
  have hurl : ∀ name ∈ ["database_url=".toList], IsAssignment name := fun name hname =>
    isAssignment_of_mem_secretNames (List.mem_singleton.mp hname ▸ List.mem_cons_self)
  have hnone : Cleared [] earlier := fun _ _ _ _ _ hname => nomatch hname
  have hcleared := (replaces_replaceFrom secretWords 0 earlier).cleared hwords
    (List.forall_mem_nil _) hnone
  rw [List.append_nil] at hcleared
  exact (replaces_replaceFrom _ 0 _).cleared hurl hwords hcleared

/-! ## Names taken along -/

/-- The pattern, after as few characters as possible of a kind that is kept. -/
def behind (isKept : Char → Bool) (pattern : Pattern) : Pattern
  | [] => pattern []
  | c :: cs =>
    match pattern (c :: cs) with
    | some found => some found
    | none =>
      if isKept c then (behind isKept pattern cs).map fun found => (found.1 + 1, found.2) else none

section

variable {isKept : Char → Bool} {pattern : Pattern} (hnil : pattern [] = none)
  (hdrop : ∀ cs found, pattern cs = some found → 0 < found.2)

include hnil hdrop

/-- What the pattern finds behind other characters it finds without them as well, only later. -/
theorem replaceFrom_of_behind {cs : List Char} {found : Nat × Nat}
    (h : behind isKept pattern cs = some found) :
    0 < found.2 ∧ replaceFrom pattern 0 cs =
      cs.take found.1 ++ mark ++ replaceFrom pattern (found.1 + found.2) cs := by
  fun_induction behind isKept pattern cs generalizing found with
  | case1 => exact absurd (hnil.symm.trans h) (Option.some_ne_none _).symm
  -- The pattern is found at the front, so both find the same.
  | case2 c cs found' hfound =>
    cases h
    have hpos := hdrop _ _ hfound
    obtain ⟨n, hn⟩ : ∃ n, found'.1 + found'.2 = n + 1 :=
      Nat.exists_eq_succ_of_ne_zero (by omega)
    refine ⟨hpos, ?_⟩
    rw [replaceFrom, hfound]
    dsimp only
    rw [hn]
    rfl
  -- The character is kept by both, and they go on behind it.
  | case3 c cs hnone _ ih =>
    obtain ⟨found, hfound, rfl⟩ := Option.map_eq_some_iff.mp h
    obtain ⟨hpos, hcs⟩ := ih hfound
    refine ⟨hpos, ?_⟩
    rw [replaceFrom, hnone, Nat.succ_add, replaceFrom]
    exact congrArg (c :: ·) hcs
  | case4 => cases h

theorem replaceFrom_behind (skip : Nat) (cs : List Char) :
    replaceFrom (behind isKept pattern) skip cs = replaceFrom pattern skip cs := by
  fun_induction replaceFrom (behind isKept pattern) skip cs with
  | case1 => rw [replaceFrom]
  | case2 skip c cs ih => exact ih
  | case3 c cs kept dropped hfound ih =>
    obtain ⟨hpos, hcs⟩ := replaceFrom_of_behind hnil hdrop hfound
    obtain ⟨n, hn⟩ : ∃ n, kept + dropped = n + 1 :=
      Nat.exists_eq_succ_of_ne_zero (Nat.ne_of_gt (Nat.add_pos_right kept hpos))
    rw [hcs, ih]
    dsimp only
    rw [hn]
    rfl
  | case4 c cs hnone ih =>
    have hnone' : pattern (c :: cs) = none := by
      rw [behind] at hnone
      split at hnone
      · cases hnone
      · assumption
    rw [replaceFrom, hnone', ih]

end

/-- It makes no difference what of a name is taken along before its last word: it stays in the text
either way. -/
theorem replaceFrom_behind_assigned (isKept : Char → Bool) {names : List (List Char)}
    (hnames : ∀ name ∈ names, IsAssignment name) (cs : List Char) :
    replaceFrom (behind isKept (assigned names)) 0 cs = replaceFrom (assigned names) 0 cs := by
  refine replaceFrom_behind ?_ ?_ 0 cs
  · refine List.findSome?_eq_none_iff.mpr fun name hname => ?_
    obtain ⟨stem, rfl, -⟩ := hnames name hname
    cases stem <;> rfl
  · rintro cs ⟨kept, dropped⟩ hfound
    obtain ⟨name, -, hsecret⟩ := List.exists_of_findSome?_eq_some hfound
    obtain ⟨_, _, _, -, -, -, -, -, hpos⟩ := secret_eq_some hsecret
    exact hpos

end Stepwise.Redact
