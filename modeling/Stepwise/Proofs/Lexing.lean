import Mathlib.Data.List.TakeWhile
import Stepwise.Command.Split

/-!
# What tokens are made of

A line is cut into tokens first, and each token loses its quotes and escapes afterwards. The cut
passes over two characters behind every backslash that is not in single quotes; what becomes of
them is decided later. Both go through the same pieces: a quote, a character that stands for itself,
a backslash with the character behind it.

* `Piece`, `Lexes`: how a token comes to its end, piece by piece. There is always a way
  (`tokenized`).
* `Passes`, `Yields`: what the cut and the unquoting make of a part of a line, whatever comes next;
  every piece is such a part.
* `Cut`: a whole line in tokens; `Cut.tokens_eq`, `Cut.unquoteFrom_eq`: what the two make of it.
-/

namespace Stepwise.Command

open Text

/-! ## Pieces -/

/-- Where a character of a line stands. -/
inductive Region where
  | outside | single | double
deriving DecidableEq

namespace Region

/-- What a backslash escapes. -/
def escapes : Region → Char → Bool
  | outside, _ => true
  | single, _ => false
  | double, c => c == '"' || c == '\\'

/-- The quotes that are open. -/
def quoting : Region → Quoting
  | outside => {}
  | single => { single := true }
  | double => { double := true }

/-- The quote that is open. -/
def quote? : Region → Option Char
  | outside => none
  | single => some '\''
  | double => some '"'

/-- The character stands for itself. -/
def isPlain : Region → Char → Bool
  | outside, c => !(c == '\'' || c == '"' || c == '\\' || isAsciiBlank c)
  | single, c => c != '\''
  | double, c => !(c == '"' || c == '\\')

end Region

/-- A piece of a token, what it stands for, and where it leads. -/
inductive Piece : Region → List Char → List Char → Region → Prop
  | opening {g : Region} {q : Char} : g.quote? = some q → Piece .outside [q] [] g
  | closing {g : Region} {q : Char} : g.quote? = some q → Piece g [q] [] .outside
  | plain {g : Region} {c : Char} : g.isPlain c = true → Piece g [c] [c] g
  | escaped {g : Region} {c : Char} : g.escapes c = true → Piece g ['\\', c] [c] g
  | kept {c : Char} : Region.double.escapes c = false → Piece .double ['\\', c] ['\\', c] .double

/-- The rest of a token, what it stands for, where it ends, and what comes behind it. A token ends
with the line, or outside quotes at a blank; a backslash that ends the line stands for itself. -/
inductive Lexes : Region → List Char → List Char → Region → List Char → Prop
  | line (g : Region) : Lexes g [] [] g []
  | blank {c : Char} {rest : List Char} : isAsciiBlank c = true →
      Lexes .outside [] [] .outside (c :: rest)
  | backslash {g : Region} : g ≠ .single → Lexes g ['\\'] ['\\'] g []
  | piece {g g' g'' : Region} {u out token out' rest : List Char} : Piece g u out g' →
      Lexes g' token out' g'' rest → Lexes g (u ++ token) (out ++ out') g'' rest

variable {g g' : Region} {c d : Char} {cs u out token rest : List Char}

/-- From here on, the characters begin with a piece. -/
def GoesOn (g : Region) (cs : List Char) : Prop :=
  ∃ u out g' rest, cs = u ++ rest ∧ u ≠ [] ∧ Piece g u out g'

/-- From here on, the characters begin with the rest of a token. -/
def Tokenized (g : Region) (cs : List Char) : Prop :=
  ∃ token out g' rest, cs = token ++ rest ∧ Lexes g token out g' rest

theorem Piece.goesOn (h : Piece g (c :: cs) out g') (rest : List Char) :
    GoesOn g (c :: (cs ++ rest)) :=
  ⟨c :: cs, out, g', rest, rfl, List.cons_ne_nil c cs, h⟩

theorem backslash_tokenized_or_goesOn (hg : g ≠ .single) (cs : List Char) :
    Tokenized g ('\\' :: cs) ∨ GoesOn g ('\\' :: cs) := by
  cases cs with
  | nil => exact .inl ⟨['\\'], ['\\'], g, [], rfl, .backslash hg⟩
  | cons d cs =>
    right
    cases g with
    | outside => exact (Piece.escaped rfl).goesOn cs
    | single => exact absurd rfl hg
    | double =>
      cases hd : Region.double.escapes d with
      | true => exact (Piece.escaped hd).goesOn cs
      | false => exact (Piece.kept hd).goesOn cs

/-- Where a text does not begin with a piece, the token ends. -/
theorem tokenized_or_goesOn (g : Region) (cs : List Char) : Tokenized g cs ∨ GoesOn g cs := by
  cases cs with
  | nil => exact .inl ⟨[], [], g, [], rfl, .line g⟩
  | cons c cs =>
    by_cases hplain : g.isPlain c = true
    · exact .inr ((Piece.plain hplain).goesOn cs)
    -- The character opens or closes quotes, escapes another one, or is a blank that ends the token.
    cases g with
    | outside =>
      simp only [Region.isPlain, Bool.not_eq_true', Bool.not_eq_false, Bool.or_eq_true, beq_iff_eq]
        at hplain
      rcases hplain with ((rfl | rfl) | rfl) | hblank
      · exact .inr ((Piece.opening (g := .single) rfl).goesOn cs)
      · exact .inr ((Piece.opening (g := .double) rfl).goesOn cs)
      · exact backslash_tokenized_or_goesOn (by decide) cs
      · exact .inl ⟨[], [], .outside, c :: cs, rfl, .blank hblank⟩
    | single =>
      obtain rfl : c = '\'' := by simpa [Region.isPlain] using hplain
      exact .inr ((Piece.closing rfl).goesOn cs)
    | double =>
      simp only [Region.isPlain, Bool.not_eq_true', Bool.not_eq_false, Bool.or_eq_true, beq_iff_eq]
        at hplain
      rcases hplain with rfl | rfl
      · exact .inr ((Piece.closing rfl).goesOn cs)
      · exact backslash_tokenized_or_goesOn (by decide) cs

/-- Every text goes on with a token, if only with an empty one. -/
theorem tokenized (g : Region) (cs : List Char) : Tokenized g cs := by
  obtain hend | ⟨u, out, g', rest, hcs, hu, hpiece⟩ := tokenized_or_goesOn g cs
  · exact hend
  · obtain ⟨token, out', g'', rest', hrest, h⟩ := tokenized g' rest
    refine ⟨u ++ token, out ++ out', g'', rest', ?_, .piece hpiece h⟩
    rw [hcs, hrest, List.append_assoc]
termination_by cs.length
decreasing_by
  have := List.length_pos_iff.mpr hu
  rw [hcs, List.length_append]
  omega

/-! ## Two ways through a piece -/

/-- The quotes that are open behind a character that is not escaped. -/
def Quoting.after (q : Quoting) (c : Char) : Quoting :=
  if c == '\'' && !q.double then { q with single := !q.single }
  else if c == '"' && !q.single then { q with double := !q.double }
  else q

/-- A character that does not escape the one behind it is looked at on its own. -/
theorem tokenFrom_cons {q : Quoting} (h : (c == '\\' && !q.single && !cs.isEmpty) = false) :
    tokenFrom q (c :: cs) =
      if !q.single && !q.double && isAsciiBlank c then ([], c :: cs)
      else (c :: (tokenFrom (q.after c) cs).1, (tokenFrom (q.after c) cs).2) := by
  cases cs with
  | nil => simp only [tokenFrom]
  | cons d cs =>
    have hback : (c == '\\' && !q.single) = false := by simpa using h
    rw [tokenFrom]
    dsimp only
    rw [hback, if_neg Bool.false_ne_true]
    rfl

theorem ne_of_isAsciiBlank (hc : isAsciiBlank c = true) (hd : isAsciiBlank d = false) : c ≠ d := by
  rintro rfl
  cases hc.symm.trans hd

/-- Outside quotes a token ends at a blank. -/
theorem tokenFrom_of_blank (hc : isAsciiBlank c = true) (cs : List Char) :
    tokenFrom {} (c :: cs) = ([], c :: cs) := by
  have hback : (c == '\\') = false := beq_eq_false_iff_ne.mpr (ne_of_isAsciiBlank hc rfl)
  rw [tokenFrom_cons (by rw [hback]; rfl), hc]
  rfl

theorem tokenFrom_backslash {q : Quoting} (h : q.single = false) (d : Char) (cs : List Char) :
    tokenFrom q ('\\' :: d :: cs) = ('\\' :: d :: (tokenFrom q cs).1, (tokenFrom q cs).2) := by
  rw [tokenFrom, h]
  rfl

theorem unquoteFrom_cons {quote : Option Char} (h : (c == '\\' && quote != some '\'') = false)
    (cs : List Char) :
    unquoteFrom quote (c :: cs) =
      if quote == some c then unquoteFrom none cs
      else if quote == none && (c == '\'' || c == '"') then unquoteFrom (some c) cs
      else (unquoteFrom quote cs).map (c :: ·) := by
  cases cs with
  | nil => simp only [unquoteFrom, ite_self]
  | cons d cs => rw [unquoteFrom, h, if_neg Bool.false_ne_true]

/-- A backslash takes the next character along, and goes itself if it has escaped it. -/
theorem unquoteFrom_backslash (hg : g ≠ .single) (d : Char) (cs : List Char) :
    unquoteFrom g.quote? ('\\' :: d :: cs) =
      (unquoteFrom g.quote? cs).map ((if g.escapes d then [d] else ['\\', d]) ++ ·) := by
  rw [unquoteFrom.eq_def]
  cases g with
  | outside => simp [Region.quote?, Region.escapes]
  | single => exact absurd rfl hg
  | double =>
    show (if Region.double.escapes d then (unquoteFrom (some '"') cs).map (d :: ·)
      else (unquoteFrom (some '"') cs).map fun rest => '\\' :: d :: rest) = _
    split <;> rfl

/-- A token that has come to `cs` with the quotes `q` open goes on through it, and leaves it with
the quotes `q'` open. -/
def Passes (q : Quoting) (cs : List Char) (q' : Quoting) : Prop :=
  ∀ rest, tokenFrom q (cs ++ rest) = (cs ++ (tokenFrom q' rest).1, (tokenFrom q' rest).2)

/-- Taking the quotes from `cs`, with `quote` open before it, gives `out` and leaves `quote'`
open. -/
def Yields (quote : Option Char) (cs out : List Char) (quote' : Option Char) : Prop :=
  ∀ rest, unquoteFrom quote (cs ++ rest) = (unquoteFrom quote' rest).map (out ++ ·)

namespace Piece

theorem passes (h : Piece g u out g') : Passes g.quoting u g'.quoting := by
  intro rest
  cases h with
  | opening hq =>
    cases g' with
    | outside => cases hq
    | single | double =>
      cases hq
      simp [tokenFrom_cons, Quoting.after, Region.quoting, isAsciiBlank]
  | closing hq =>
    cases g with
    | outside => cases hq
    | single | double =>
      cases hq
      simp [tokenFrom_cons, Quoting.after, Region.quoting]
  | @plain g c hc =>
    cases g with
    | outside | single | double =>
      simp only [Region.isPlain, Bool.not_eq_true', Bool.or_eq_false_iff, bne_iff_ne,
        beq_eq_false_iff_ne] at hc
      simp [tokenFrom_cons, Quoting.after, Region.quoting, hc]
  | @escaped g c hc =>
    cases g with
    | outside | double => exact tokenFrom_backslash rfl c rest
    | single => cases hc
  | @kept c hc => exact tokenFrom_backslash rfl c rest

theorem yields (h : Piece g u out g') : Yields g.quote? u out g'.quote? := by
  intro rest
  cases h with
  | opening hq =>
    cases g' with
    | outside => cases hq
    | single | double =>
      cases hq
      simp [unquoteFrom_cons, Region.quote?]
  | closing hq =>
    cases g with
    | outside => cases hq
    | single | double =>
      cases hq
      simp [unquoteFrom_cons, Region.quote?]
  | @plain g c hc =>
    cases g with
    | outside | single | double =>
      simp only [Region.isPlain, Bool.not_eq_true', Bool.or_eq_false_iff, bne_iff_ne,
        beq_eq_false_iff_ne] at hc
      simp [unquoteFrom_cons, Region.quote?, hc, Ne.symm]
  | @escaped g c hc =>
    have hg : g ≠ .single := by
      rintro rfl
      cases hc
    rw [List.cons_append, List.singleton_append, unquoteFrom_backslash hg, if_pos hc]
  | @kept c hc =>
    rw [List.cons_append, List.singleton_append, unquoteFrom_backslash (by decide),
      if_neg (by rw [hc]; exact Bool.false_ne_true)]

theorem ne_nil (h : Piece g u out g') : u ≠ [] := by
  cases h <;> exact List.cons_ne_nil _ _

/-- No piece outside quotes begins with a blank. -/
theorem head_not_blank (h : Piece .outside u out g') :
    ∀ c ∈ u.head?, isAsciiBlank c = false := by
  cases h with
  | opening hq =>
    rintro c ⟨⟩
    cases g' <;> cases hq <;> rfl
  | closing hq => cases hq
  | plain hc =>
    rintro c ⟨⟩
    simp only [Region.isPlain, Bool.not_eq_true', Bool.or_eq_false_iff] at hc
    exact hc.2
  | escaped hc =>
    rintro c ⟨⟩
    rfl

end Piece

/-! ## To the end of a token -/

namespace Lexes

theorem tokenFrom_eq (h : Lexes g token out g' rest) :
    tokenFrom g.quoting (token ++ rest) = (token, rest) := by
  induction h with
  | line g => cases g <;> rfl
  | blank hc => exact tokenFrom_of_blank hc _
  | @backslash g hg => cases g <;> rfl
  | piece hpiece _ ih => rw [List.append_assoc, hpiece.passes, ih]

theorem unquoteFrom_eq (h : Lexes g token out g' rest) :
    unquoteFrom g.quote? token = if g' = .outside then some out else none := by
  induction h with
  | line g => cases g <;> rfl
  | blank hc => rfl
  | @backslash g hg => cases g <;> rfl
  | piece hpiece _ ih =>
    rw [hpiece.yields, ih]
    split <;> rfl

/-- A token ends with the line or at a blank, so it is empty only there. -/
theorem head_rest (h : Lexes g token out g' rest) : ∀ c ∈ rest.head?, isAsciiBlank c = true := by
  induction h with
  | line g => exact fun _ hc => nomatch hc
  | blank hc =>
    rintro c ⟨⟩
    exact hc
  | backslash hg => exact fun _ hc => nomatch hc
  | piece _ _ ih => exact ih

theorem head_not_blank (h : Lexes .outside token out g' rest) :
    ∀ c ∈ token.head?, isAsciiBlank c = false := by
  cases h with
  | line g => exact fun _ hc => nomatch hc
  | blank hc => exact fun _ hc => nomatch hc
  | backslash hg =>
    rintro c ⟨⟩
    rfl
  | @piece _ g'' _ u out token out' _ hpiece _ =>
    obtain ⟨c, u, rfl⟩ := List.exists_cons_of_ne_nil hpiece.ne_nil
    exact hpiece.head_not_blank

/-- Only a token at the end of the line ends inside quotes. -/
theorem outside (h : Lexes g token out g' rest) (hrest : rest ≠ []) : g' = .outside := by
  induction h with
  | line g => exact absurd rfl hrest
  | blank hc => rfl
  | backslash hg => exact absurd rfl hrest
  | piece _ _ ih => exact ih hrest

end Lexes

/-! ## The whole line -/

/-- A token of a line: its characters, what it stands for, and where it ends. -/
structure Part where
  token : List Char
  out : List Char
  region : Region

/-- The line is made of these tokens, with blanks between them. -/
inductive Cut : List Char → List Part → Prop
  | blanks {gap : List Char} : (∀ c ∈ gap, isAsciiBlank c = true) → Cut gap []
  | part {gap token out rest : List Char} {g : Region} {parts : List Part} :
      (∀ c ∈ gap, isAsciiBlank c = true) → token ≠ [] → Lexes .outside token out g rest →
      Cut rest parts → Cut (gap ++ token ++ rest) (⟨token, out, g⟩ :: parts)

theorem exists_cut (cs : List Char) : ∃ parts, Cut cs parts := by
  have hsplit : cs.takeWhile isAsciiBlank ++ cs.dropWhile isAsciiBlank = cs :=
    List.takeWhile_append_dropWhile
  have hgap : ∀ c ∈ cs.takeWhile isAsciiBlank, isAsciiBlank c = true :=
    fun c hc => List.mem_takeWhile_imp hc
  cases hdrop : cs.dropWhile isAsciiBlank with
  | nil =>
    rw [hdrop, List.append_nil] at hsplit
    exact ⟨[], .blanks (hsplit ▸ hgap)⟩
  | cons c cs' =>
    obtain ⟨token, out, g, rest, htext, hlexes⟩ := tokenized .outside (c :: cs')
    -- The token is not empty, so what is left is shorter.
    have htoken : token ≠ [] := by
      rintro rfl
      rw [List.nil_append] at htext
      subst htext
      have hblank : isAsciiBlank c = true := hlexes.head_rest c rfl
      rw [not_blank_of_dropWhile hdrop] at hblank
      cases hblank
    have hlength : rest.length < cs.length := by
      have hpos := List.length_pos_iff.mpr htoken
      have hcs := congrArg List.length hsplit
      rw [hdrop, htext, List.length_append, List.length_append] at hcs
      omega
    obtain ⟨parts, hparts⟩ := exists_cut rest
    refine ⟨⟨token, out, g⟩ :: parts, ?_⟩
    rw [← hsplit, hdrop, htext, ← List.append_assoc]
    exact .part hgap htoken hlexes hparts
termination_by cs.length

theorem tokens_of_blanks {cs : List Char} (h : ∀ c ∈ cs, isAsciiBlank c = true) :
    tokens cs = [] := by
  have hnil : cs.dropWhile isAsciiBlank = [] := List.dropWhile_eq_nil_iff.mpr h
  rw [tokens]
  split
  · rfl
  · rename_i c cs' hcs
    rw [hnil] at hcs
    cases hcs

namespace Cut

variable {parts : List Part}

theorem tokens_eq (h : Cut cs parts) : tokens cs = parts.map Part.token := by
  induction h with
  | blanks hgap => exact tokens_of_blanks hgap
  | @part gap token out rest g parts hgap htoken hlexes _ ih =>
    obtain ⟨c, token, rfl⟩ := List.exists_cons_of_ne_nil htoken
    have hc : isAsciiBlank c = false := hlexes.head_not_blank c rfl
    have hdrop : (gap ++ (c :: token) ++ rest).dropWhile isAsciiBlank = c :: token ++ rest := by
      rw [List.append_assoc, List.dropWhile_append_of_pos hgap]
      exact List.dropWhile_cons_of_neg (by rw [hc]; exact Bool.false_ne_true)
    have htoken : tokenFrom {} (c :: token ++ rest) = (c :: token, rest) := hlexes.tokenFrom_eq
    rw [tokens]
    split
    · next hnil => cases hdrop.symm.trans hnil
    · next d ds hds => rw [← hds, hdrop, htoken, ih, List.map_cons]

theorem unquoteFrom_eq (h : Cut cs parts) : ∀ part ∈ parts,
    unquoteFrom none part.token = if part.region = .outside then some part.out else none := by
  induction h with
  | blanks hgap => exact List.forall_mem_nil _
  | part hgap htoken hlexes _ ih => exact List.forall_mem_cons.mpr ⟨hlexes.unquoteFrom_eq, ih⟩

theorem parts_nil (h : Cut [] parts) : parts = [] := by
  generalize hcs : ([] : List Char) = cs at h
  cases h with
  | blanks hgap => rfl
  | part hgap htoken _ _ =>
    simp only [List.append_assoc, List.nil_eq, List.append_eq_nil_iff] at hcs
    exact absurd hcs.2.1 htoken

/-- Only the last token may end inside quotes. -/
theorem outside_of_dropLast (h : Cut cs parts) :
    ∀ part ∈ parts.dropLast, part.region = .outside := by
  induction h with
  | blanks hgap => exact List.forall_mem_nil _
  | @part gap token out rest g parts hgap htoken hlexes hrest ih =>
    cases parts with
    | nil => exact List.forall_mem_nil _
    | cons part parts =>
      have hne : rest ≠ [] := by
        rintro rfl
        cases hrest.parts_nil
      exact List.forall_mem_cons.mpr ⟨hlexes.outside hne, ih⟩

end Cut

end Stepwise.Command
