import Stepwise.Proofs.Lexing

/-!
# Quoting arguments

Any text can be written as an argument of a command line: in single quotes, where nothing but the
single quote itself has a meaning. A single quote in the text leaves the quotes, stands behind a
backslash, and enters them again. Whatever blanks stand between arguments that are written so, the
line is split into these arguments.

* `quoted`: an argument in single quotes.
* `Lexes.quoted`: it is a token, and stands for the argument.
* `cut_quotedLine`, `tokens_quotedLine`: a line of quoted arguments is cut between them.
* `split?_quotedLine`: and gives them back.
-/

namespace Stepwise.Command

open Text

/-! ## Writing -/

/-- A character as it stands between single quotes. -/
def quotedChar (c : Char) : List Char := if c = '\'' then ['\'', '\\', '\'', '\''] else [c]

/-- An argument in single quotes. -/
def quoted (arg : String) : List Char := '\'' :: (arg.toList.flatMap quotedChar ++ ['\''])

/-- Quoted arguments on a line, each behind the blanks that go before it. -/
def quotedLine (parts : List (List Char × String)) : List Char :=
  parts.flatMap fun part => part.1 ++ quoted part.2

/-! ## Reading -/

namespace Lexes

variable {rest : List Char} (hrest : ∀ c ∈ rest.head?, isAsciiBlank c = true)

include hrest

theorem ends : Lexes .outside [] [] .outside rest := by
  cases rest with
  | nil => exact .line .outside
  | cons c rest => exact .blank (hrest c rfl)

/-- In single quotes, characters that are written so come to the closing quote. -/
theorem quotedChars (cs : List Char) :
    Lexes .single (cs.flatMap quotedChar ++ ['\'']) cs .outside rest := by
  induction cs with
  | nil => exact .piece (.closing rfl) (ends hrest)
  | cons c cs ih =>
    rw [List.flatMap_cons, List.append_assoc]
    unfold quotedChar
    split
    · next hc =>
      subst hc
      exact .piece (.closing rfl) (.piece (.escaped rfl) (.piece (.opening rfl) ih))
    · next hc =>
      have hplain : Region.single.isPlain c = true := bne_iff_ne.mpr hc
      exact .piece (.plain hplain) ih

/-- A quoted argument is a token, if no character stands right behind it that would go on with
it. -/
theorem quoted (arg : String) : Lexes .outside (quoted arg) arg.toList .outside rest :=
  .piece (.opening (g := .single) rfl) (quotedChars hrest arg.toList)

end Lexes

/-- What was quoted is given back. -/
theorem unquoteFrom_quoted (arg : String) : unquoteFrom none (quoted arg) = some arg.toList := by
  have hrest : ∀ c ∈ ([] : List Char).head?, isAsciiBlank c = true := fun _ hc => nomatch hc
  exact (Lexes.quoted hrest arg).unquoteFrom_eq

/-- Between two arguments there is a blank, and behind the last one there are only blanks. -/
theorem head?_quotedLine {parts : List (List Char × String)} {trail : List Char}
    (hblank : ∀ part ∈ parts, ∀ c ∈ part.1, isAsciiBlank c = true)
    (happart : ∀ part ∈ parts, part.1 ≠ []) (htrail : ∀ c ∈ trail, isAsciiBlank c = true) :
    ∀ c ∈ (quotedLine parts ++ trail).head?, isAsciiBlank c = true := by
  cases parts with
  | nil => exact fun c hc => htrail c (List.mem_of_mem_head? hc)
  | cons part parts =>
    obtain ⟨gap, arg⟩ := part
    cases gap with
    | nil => exact absurd rfl (happart _ List.mem_cons_self)
    | cons b gap =>
      rintro c ⟨⟩
      exact hblank _ List.mem_cons_self b List.mem_cons_self

/-- A line of quoted arguments is made of the quoted arguments. -/
theorem cut_quotedLine {parts : List (List Char × String)} {trail : List Char}
    (hblank : ∀ part ∈ parts, ∀ c ∈ part.1, isAsciiBlank c = true)
    (happart : ∀ part ∈ parts.tail, part.1 ≠ []) (htrail : ∀ c ∈ trail, isAsciiBlank c = true) :
    Cut (quotedLine parts ++ trail)
      (parts.map fun part => ⟨quoted part.2, part.2.toList, .outside⟩) := by
  induction parts with
  | nil => exact .blanks htrail
  | cons part parts ih =>
    obtain ⟨hgap, hrest⟩ := List.forall_mem_cons.mp hblank
    have happart : ∀ part ∈ parts, part.1 ≠ [] := happart
    have hparts := ih hrest fun p hp => happart p (List.mem_of_mem_tail hp)
    have htoken := Lexes.quoted (head?_quotedLine hrest happart htrail) part.2
    rw [quotedLine, List.flatMap_cons, List.append_assoc, ← quotedLine]
    exact .part hgap (List.cons_ne_nil _ _) htoken hparts

/-- The tokens of a line of quoted arguments are the quoted arguments. -/
theorem tokens_quotedLine {parts : List (List Char × String)} {trail : List Char}
    (hblank : ∀ part ∈ parts, ∀ c ∈ part.1, isAsciiBlank c = true)
    (happart : ∀ part ∈ parts.tail, part.1 ≠ []) (htrail : ∀ c ∈ trail, isAsciiBlank c = true) :
    tokens (quotedLine parts ++ trail) = parts.map fun part => quoted part.2 := by
  rw [(cut_quotedLine hblank happart htrail).tokens_eq, List.map_map]
  rfl

/-! ## Lines -/

/-- Quoting is undone by splitting. The arguments may hold any characters or none, and any blanks
may stand before, between and behind them, as long as there are some between two of them. -/
theorem split?_quotedLine {parts : List (List Char × String)} {trail : List Char}
    (hblank : ∀ part ∈ parts, ∀ c ∈ part.1, isAsciiBlank c = true)
    (happart : ∀ part ∈ parts.tail, part.1 ≠ []) (htrail : ∀ c ∈ trail, isAsciiBlank c = true) :
    split? (String.ofList (quotedLine parts ++ trail)) = some (parts.map Prod.snd) := by
  rw [split?, String.toList_ofList, tokens_quotedLine hblank happart htrail, List.mapM_map]
  clear hblank happart
  induction parts with
  | nil => rfl
  | cons part parts ih =>
    rw [List.mapM_cons, ih]
    simp [unquoteFrom_quoted]

/-- Nothing, a quote in a text, and an escaped line feed behind a letter of two bytes. -/
theorem split?_quotedLine_three :
    let parts : List (List Char × String) :=
      [([], ""), (['\t', ' '], "it's"), (['\n'], "é\\\n\" ")]
    (∀ part ∈ parts, ∀ c ∈ part.1, isAsciiBlank c = true) ∧ (∀ part ∈ parts.tail, part.1 ≠ []) ∧
      quotedLine parts = "''\t 'it'\\''s'\n'é\\\n\" '".toList ∧
      split? (String.ofList (quotedLine parts ++ [' '])) = some ["", "it's", "é\\\n\" "] := by
  intro parts
  have hblank : ∀ part ∈ parts, ∀ c ∈ part.1, isAsciiBlank c = true := by
    simp [parts, isAsciiBlank]
  have happart : ∀ part ∈ parts.tail, part.1 ≠ [] := by simp [parts]
  exact ⟨hblank, happart, rfl, split?_quotedLine hblank happart (by simp [isAsciiBlank])⟩

end Stepwise.Command
