import Mathlib.Data.List.Infix
import Stepwise.Proofs.Screening

/-!
# Excerpts of a screened line

A line of a snippet is screened as it stands, and then a part of it is screened once more: what it
prints, put into brackets, or what it assigns. Some patterns look at the characters on either side
of a word, so that a part may have words of its own that are none in the line. The parts in question
are cut where no word goes on, and brackets belong to no pattern, so what is found in such a part is
found in its line.

* `Pattern.Reads`: a pattern told by the texts it matches and by what it asks of their neighbours.
* `found_of_excerpt`, `found_of_bracketed`: what is found in a part is found in the whole.
* `Statement.handedOver_screened`: the part of a line that is evaluated passes if the line does.
-/

namespace Stepwise

/-! ## Blanks -/

namespace Text

/-- The code points of the blanks. -/
def blankCodes : List Nat :=
  [9, 10, 11, 12, 13, 0x20, 0x85, 0xA0, 0x1680, 0x2000, 0x2001, 0x2002, 0x2003, 0x2004, 0x2005,
   0x2006, 0x2007, 0x2008, 0x2009, 0x200A, 0x2028, 0x2029, 0x202F, 0x205F, 0x3000]

theorem mem_blankCodes {c : Char} (h : isBlank c = true) : c.toNat ∈ blankCodes := by
  simp only [isBlank, Bool.or_eq_true, Bool.and_eq_true, decide_eq_true_eq, beq_iff_eq] at h
  simp only [blankCodes, List.mem_cons, List.not_mem_nil, or_false]
  omega

/-- No blank belongs to a word. -/
theorem isWord_of_isBlank {c : Char} (h : isBlank c = true) : isWord c = false := by
  have hall : ∀ code ∈ blankCodes, isWord (Char.ofNat code) = false := by decide +kernel
  have := hall c.toNat (mem_blankCodes h)
  rwa [Char.ofNat_toNat] at this

theorem dropEndWhile_append (p : Char → Bool) (cs : List Char) :
    ∃ tail, cs = dropEndWhile p cs ++ tail ∧ tail.all p = true := by
  refine ⟨(cs.reverse.takeWhile p).reverse, ?_, ?_⟩
  · rw [dropEndWhile, ← List.reverse_append, List.takeWhile_append_dropWhile, List.reverse_reverse]
  · rw [List.all_reverse]
    exact List.all_takeWhile

/-- Trimming takes blanks from both ends. -/
theorem trimChars_append (cs : List Char) :
    ∃ front tail, cs = front ++ trimChars cs ++ tail ∧ front.all isBlank = true ∧
      tail.all isBlank = true := by
  obtain ⟨tail, hcs, htail⟩ := dropEndWhile_append isBlank (cs.dropWhile isBlank)
  refine ⟨cs.takeWhile isBlank, tail, ?_, List.all_takeWhile, htail⟩
  rw [List.append_assoc, trimChars, ← hcs, List.takeWhile_append_dropWhile]

end Text

namespace Screen

open Text

/-! ## Patterns -/

/-- The text is not empty, and no bracket stands in it. -/
def Unbracketed (cs : List Char) : Prop := cs ≠ [] ∧ '[' ∉ cs ∧ ']' ∉ cs

instance (cs : List Char) : Decidable (Unbracketed cs) :=
  inferInstanceAs (Decidable (cs ≠ [] ∧ '[' ∉ cs ∧ ']' ∉ cs))

/-- The pattern matches where a text of this kind begins, and, if it means whole words, no word goes
on at either end of the text. -/
structure Pattern.Reads (p : Pattern) (whole : Bool) (kind : List Char → Prop) : Prop where
  iff : ∀ before cs, p before cs = true ↔
    ∃ text after, cs = text ++ after ∧ kind text ∧
      (whole = true → before.any isWord = false ∧ after.head?.any isWord = false)
  unbracketed : ∀ text, kind text → Unbracketed text

theorem literal_reads {text : String} (h : Unbracketed text.toList) :
    Pattern.Reads (literal text) false (· = text.toList) where
  iff before cs := by
    refine List.isPrefixOf_iff_prefix.trans ⟨?_, ?_⟩
    · rintro ⟨after, rfl⟩
      exact ⟨_, after, rfl, rfl, nofun⟩
    · rintro ⟨_, after, rfl, rfl, -⟩
      exact ⟨after, rfl⟩
  unbracketed _ htext := htext ▸ h

theorem anyCase_reads {text : String} (h : Unbracketed text.toList) :
    Pattern.Reads (anyCase text) false (·.map Char.toLower = text.toList) where
  iff before cs := by
    refine List.isPrefixOf_iff_prefix.trans ⟨fun hp => ?_, ?_⟩
    · refine ⟨cs.take text.length, cs.drop text.length, (List.take_append_drop _ _).symm, ?_, nofun⟩
      refine (hp.eq_of_length_le ?_).symm
      rw [List.length_map, String.length_toList]
      exact List.length_take_le _ _
    · rintro ⟨found, after, rfl, hfound, -⟩
      have hlength : found.length = text.length := by
        rw [← List.length_map Char.toLower, hfound, String.length_toList]
      rw [List.take_left' hlength, hfound]
  unbracketed found hfound := by
    obtain ⟨hne, hopen, hclose⟩ := h
    rw [← hfound] at hne hopen hclose
    refine ⟨fun he => hne (by rw [he]; rfl), fun hc => hopen ?_, fun hc => hclose ?_⟩
    · exact List.mem_map_of_mem (f := Char.toLower) hc
    · exact List.mem_map_of_mem (f := Char.toLower) hc

theorem wordsThen_reads {words : List String} {mark : Char} (hm : isBlank mark = false)
    (h : Unbracketed [mark]) (hwords : ∀ word ∈ words, Unbracketed word.toList) :
    Pattern.Reads (wordsThen words mark) false fun text =>
      ∃ word ∈ words, ∃ blanks, blanks.all isBlank = true ∧
        text = word.toList ++ blanks ++ [mark] where
  iff before cs := by
    constructor
    · -- The word is found behind the blanks before the mark.
      intro hp
      obtain ⟨word, hword, hmark⟩ := List.any_eq_true.mp hp
      split at hmark
      · next rest hrest =>
        obtain ⟨after, hafter⟩ := List.head?_eq_some_iff.mp (beq_iff_eq.mp hmark)
        obtain rfl := behind?_eq_some_iff.mp hrest
        refine ⟨_, after, ?_, ⟨word, hword, rest.takeWhile isBlank, List.all_takeWhile, rfl⟩, nofun⟩
        rw [List.append_assoc, List.append_assoc, List.singleton_append, ← hafter,
          List.takeWhile_append_dropWhile]
      · cases hmark
    · rintro ⟨_, after, rfl, ⟨word, hword, blanks, hblanks, rfl⟩, -⟩
      exact wordsThen_append hword hblanks hm before after
  unbracketed := by
    rintro _ ⟨word, hword, blanks, hblanks, rfl⟩
    obtain ⟨-, hopen, hclose⟩ := hwords word hword
    have hnotin {c : Char} (hc : isBlank c = false) (hword : c ∉ word.toList) (hmark : c ∉ [mark]) :
        c ∉ word.toList ++ blanks ++ [mark] := by
      refine List.not_mem_append (List.not_mem_append hword fun h => ?_) hmark
      exact Bool.eq_false_iff.mp hc (List.all_eq_true.mp hblanks c h)
    exact ⟨by simp, hnotin (by decide) hopen h.2.1, hnotin (by decide) hclose h.2.2⟩

theorem wholeWord_reads {words : List String} (h : ∀ word ∈ words, Unbracketed word.toList) :
    Pattern.Reads (wholeWord words) true fun text => ∃ word ∈ words, text = word.toList where
  iff before cs := by
    unfold wholeWord
    rw [Bool.and_eq_true, Bool.not_eq_true', List.any_eq_true]
    constructor
    · rintro ⟨hbefore, word, hword, hp⟩
      split at hp
      · next rest hrest =>
        obtain rfl := behind?_eq_some_iff.mp hrest
        exact ⟨_, rest, rfl, ⟨word, hword, rfl⟩, fun _ => ⟨hbefore, by simpa using hp⟩⟩
      · cases hp
    · rintro ⟨_, after, rfl, ⟨word, hword, rfl⟩, hends⟩
      refine ⟨(hends rfl).1, word, hword, ?_⟩
      rw [behind?_eq_some_iff.mpr rfl]
      simpa using (hends rfl).2
  unbracketed := by
    rintro _ ⟨word, hword, rfl⟩
    exact h word hword

/-- All patterns for expressions are of such a form. -/
theorem expressionPatterns_read :
    ∀ p ∈ expressionPatterns, ∃ whole kind, p.1.Reads whole kind := by
  simp only [expressionPatterns, List.forall_mem_cons]
  exact ⟨⟨_, _, literal_reads (by decide)⟩, ⟨_, _, anyCase_reads (by decide)⟩,
    ⟨_, _, wholeWord_reads (by decide)⟩,
    ⟨_, _, wordsThen_reads (by decide) (by decide) (by decide)⟩,
    ⟨_, _, wholeWord_reads (by decide)⟩,
    ⟨_, _, wordsThen_reads (by decide) (by decide) (by decide)⟩,
    ⟨_, _, wholeWord_reads (by decide)⟩, ⟨_, _, wholeWord_reads (by decide)⟩,
    fun _ h => absurd h List.not_mem_nil⟩

/-! ## Finding -/

theorem found_iff {p : Pattern} {before : Option Char} {cs : List Char} :
    found p before cs = true ↔
      ∃ front rest, cs = front ++ rest ∧ p (front.getLast?.or before) rest = true := by
  induction cs generalizing before with
  | nil =>
    refine ⟨fun h => ⟨[], [], rfl, h⟩, ?_⟩
    rintro ⟨front, rest, hcs, h⟩
    obtain ⟨rfl, rfl⟩ := List.append_eq_nil_iff.mp hcs.symm
    exact h
  -- The character in front of what is left is either the last that was passed or the one given.
  | cons c cs ih =>
    rw [found, Bool.or_eq_true, ih]
    have hlast (front : List Char) :
        (c :: front).getLast?.or before = front.getLast?.or (some c) := by
      rw [List.getLast?_cons]
      cases front.getLast? with
      | none => rfl
      | some d => rfl
    constructor
    · rintro (h | ⟨front, rest, rfl, h⟩)
      · exact ⟨[], c :: cs, rfl, h⟩
      · exact ⟨c :: front, rest, rfl, (hlast front).symm ▸ h⟩
    · rintro ⟨front, rest, hcs, h⟩
      cases front with
      | nil =>
        obtain rfl : c :: cs = rest := hcs
        exact .inl h
      | cons d front =>
        obtain ⟨rfl, rfl⟩ := List.cons.inj hcs
        exact .inr ⟨front, rest, rfl, hlast front ▸ h⟩

variable {p : Pattern} {whole : Bool} {kind : List Char → Prop} {part front tail : List Char}

/-- What is found in a part is found in the whole, if no word goes on where the part was cut. -/
theorem found_of_excerpt (hp : p.Reads whole kind) (hfront : front.getLast?.any isWord = false)
    (htail : tail.head?.any isWord = false) (h : found p none part = true) :
    found p none (front ++ part ++ tail) = true := by
  obtain ⟨pre, rest, rfl, hmatch⟩ := found_iff.mp h
  obtain ⟨text, after, rfl, htext, hends⟩ := (hp.iff _ _).mp hmatch
  refine found_iff.mpr ⟨front ++ pre, text ++ (after ++ tail), by simp only [List.append_assoc], ?_⟩
  refine (hp.iff _ _).mpr ⟨text, after ++ tail, rfl, htext, fun hw => ?_⟩
  obtain ⟨hbefore, hafter⟩ := hends hw
  rw [Option.or_none] at hbefore ⊢
  rw [List.getLast?_append, List.head?_append]
  refine ⟨?_, ?_⟩
  · cases hc : pre.getLast? with
    | none => exact hfront
    | some c => rwa [hc] at hbefore
  · cases hc : after.head? with
    | none => exact htail
    | some c => rwa [hc] at hafter

/-- A text lies within the brackets around it. -/
theorem split_bracketed {pre text after : List Char} (htext : Unbracketed text)
    (h : '[' :: part ++ [']'] = pre ++ (text ++ after)) :
    ∃ pre' after', pre = '[' :: pre' ∧ after = after' ++ [']'] ∧
      part = pre' ++ (text ++ after') := by
  obtain ⟨hne, hopen, hclose⟩ := htext
  cases pre with
  | nil =>
    obtain ⟨c, text, rfl⟩ := List.exists_cons_of_ne_nil hne
    obtain ⟨rfl, -⟩ := List.cons.inj h
    exact absurd List.mem_cons_self hopen
  | cons d pre =>
    obtain ⟨rfl, h⟩ := List.cons.inj h
    rcases after.eq_nil_or_concat' with rfl | ⟨after, c, rfl⟩
    · obtain ⟨text, c, rfl⟩ := text.eq_nil_or_concat'.resolve_left hne
      rw [List.append_nil, ← List.append_assoc] at h
      obtain ⟨rfl, -⟩ := List.cons.inj (List.append_inj' h rfl).2
      exact absurd (List.mem_append_right _ List.mem_cons_self) hclose
    · rw [← List.append_assoc, ← List.append_assoc] at h
      obtain ⟨hpart, hc⟩ := List.append_inj' h rfl
      obtain ⟨rfl, -⟩ := List.cons.inj hc
      exact ⟨pre, after, rfl, rfl, (List.cons.inj hpart).2.trans (List.append_assoc _ _ _)⟩

/-- What is found between brackets is found without them. -/
theorem found_of_bracketed (hp : p.Reads whole kind)
    (h : found p none ('[' :: part ++ [']']) = true) : found p none part = true := by
  obtain ⟨pre, rest, hpart, h⟩ := found_iff.mp h
  obtain ⟨text, after, rfl, htext, hends⟩ := (hp.iff _ _).mp h
  obtain ⟨pre, after, rfl, rfl, rfl⟩ := split_bracketed (hp.unbracketed text htext) hpart
  refine found_iff.mpr ⟨pre, _, rfl, (hp.iff _ _).mpr ⟨text, after, rfl, htext, fun hw => ?_⟩⟩
  obtain ⟨hbefore, hafter⟩ := hends hw
  rw [Option.or_none] at hbefore ⊢
  rw [List.getLast?_cons] at hbefore
  rw [List.head?_append] at hafter
  refine ⟨?_, ?_⟩
  · cases hc : pre.getLast? with
    | none => rfl
    | some c => rwa [hc] at hbefore
  · cases hc : after.head? with
    | none => rfl
    | some c => rwa [hc] at hafter

theorem expression_eq_ok_iff {text : String} :
    expression text = .ok () ↔ ∀ p ∈ expressionPatterns, found p.1 none text.toList = false := by
  unfold expression
  split
  · next label h =>
    refine ⟨nofun, fun hall => ?_⟩
    have hfound := List.find?_some h
    rw [hall _ (List.mem_of_find?_eq_some h)] at hfound
    cases hfound
  · next h => exact iff_of_true rfl fun p hp => Bool.eq_false_iff.mpr (List.find?_eq_none.mp h p hp)

end Screen

/-! ## What lines hand over -/

namespace Statement

open Text

/-- The text that is handed over to the evaluator. -/
def handedOver : Statement → List Char
  | print arguments => '[' :: arguments ++ [']']
  | assign _ expression => expression
  | evaluate expression => expression

/-- The arguments stand between parentheses. -/
theorem printed?_excerpt {cs arguments : List Char} (h : printed? cs = some arguments) :
    ∃ front, cs = front ++ ['('] ++ arguments ++ [')'] := by
  obtain ⟨rest, hrest, hinner⟩ := Option.bind_eq_some_iff.mp h
  obtain rfl := behind?_eq_some_iff.mp hrest
  split at hinner
  · next inner hopen =>
    split at hinner
    · next hc =>
      cases hinner
      rw [Bool.and_eq_true, beq_iff_eq] at hc
      refine ⟨"print".toList ++ rest.takeWhile isBlank, ?_⟩
      have hlast := List.dropLast_append_getLast? ')' hc.1
      rw [List.append_assoc, hlast, List.append_assoc, List.append_assoc, List.singleton_append,
        ← hopen, List.takeWhile_append_dropWhile]
    · cases hinner
  · cases hinner

/-- An assigned expression begins behind a blank or the sign, and ends with the line or before a
blank. -/
theorem assigned?_excerpt {cs name expression : List Char}
    (h : assigned? cs = some (name, expression)) :
    ∃ front tail, cs = front ++ expression ++ tail ∧ front.getLast?.any isWord = false ∧
      tail.head?.any isWord = false := by
  unfold assigned? at h
  dsimp only at h
  split at h
  · next c rest hrest =>
    split at h
    · cases h
      obtain ⟨front, tail, hsplit, hfront, htail⟩ := trimChars_append (c :: rest)
      refine ⟨cs.takeWhile continuesIdentifier ++
        (cs.dropWhile continuesIdentifier).takeWhile isBlank ++ '=' :: front, tail, ?_, ?_, ?_⟩
      · have happend (xs ys : List Char) :
            xs ++ '=' :: front ++ trimChars (c :: rest) ++ ys =
              xs ++ '=' :: (front ++ trimChars (c :: rest) ++ ys) := by
          simp only [List.append_assoc, List.cons_append]
        rw [happend, ← hsplit, ← hrest, List.append_assoc, List.takeWhile_append_dropWhile,
          List.takeWhile_append_dropWhile]
      · rw [List.getLast?_append, List.getLast?_cons]
        cases hc : front.getLast? with
        | none => rfl
        | some d =>
          exact isWord_of_isBlank (List.all_eq_true.mp hfront d (List.mem_of_getLast? hc))
      · cases hc : tail.head? with
        | none => rfl
        | some d => exact isWord_of_isBlank (List.all_eq_true.mp htail d (List.mem_of_head? hc))
    · cases h
  · cases h

/-- What a line hands over to the evaluator passes the screen if the line does. -/
theorem handedOver_screened {line : List Char}
    (h : Screen.expression (String.ofList line) = .ok ()) :
    Screen.expression (String.ofList (ofLine line).handedOver) = .ok () := by
  rw [Screen.expression_eq_ok_iff, String.toList_ofList] at h ⊢
  intro p hp
  obtain ⟨whole, kind, hreads⟩ := Screen.expressionPatterns_read p hp
  have hline := h p hp
  unfold ofLine
  -- The excerpt has no word character on either side, so a whole word in it is one in the line.
  split
  · next arguments harguments =>
    obtain ⟨front, rfl⟩ := printed?_excerpt harguments
    refine Bool.eq_false_iff.mpr fun hfound => ?_
    have hfront : (front ++ ['(']).getLast?.any Text.isWord = false := by
      rw [List.getLast?_concat]
      decide
    have htail : [')'].head?.any Text.isWord = false := by decide
    have hwhole := Screen.found_of_excerpt hreads hfront htail
      (Screen.found_of_bracketed hreads hfound)
    cases hline.symm.trans hwhole
  · split
    · next name expression hassigned =>
      obtain ⟨front, tail, rfl, hfront, htail⟩ := assigned?_excerpt hassigned
      refine Bool.eq_false_iff.mpr fun hfound => ?_
      have hwhole := Screen.found_of_excerpt hreads hfront htail hfound
      cases hline.symm.trans hwhole
    · exact hline

end Statement

end Stepwise
