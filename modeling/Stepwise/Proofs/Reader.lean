import Stepwise.Proofs.Lexing

/-!
# One reader for a command line

Cutting a line into tokens and unquoting them can be done in one go from left to right, by a reader
that stands outside quotes, in single quotes or in double ones.

* `Reader.read`: this reader.
* `Piece.reads`, `Lexes.read_eq`: what it makes of a piece, and of the rest of a token.
* `Cut.read_eq`: what it makes of a line.
* `split?_eq_arguments?`: the same arguments.
-/

namespace Stepwise.Command

open Text

/-! ## The reader -/

/-- A line that has been read so far: where the reader stands, the argument it has begun, and those
it is done with. -/
structure Reader where
  region : Region := .outside
  word? : Option (List Char) := none
  words : List (List Char) := []

namespace Reader

/-- The characters belong to the argument that has been begun, or begin one. -/
def put (r : Reader) (cs : List Char) (region : Region) : Reader :=
  { r with word? := some (r.word?.getD [] ++ cs), region }

/-- The argument that has been begun is complete. -/
def close (r : Reader) : Reader := { r with word? := none, words := r.words ++ r.word?.toList }

/-- Reads a character that is not escaped. -/
def take (r : Reader) (c : Char) : Reader :=
  match r.region with
  | .outside =>
    if c == '\'' then r.put [] .single
    else if c == '"' then r.put [] .double
    else if isAsciiBlank c then r.close
    else r.put [c] .outside
  | .single => if c == '\'' then r.put [] .outside else r.put [c] .single
  | .double => if c == '"' then r.put [] .outside else r.put [c] .double

/-- Reads on from left to right. -/
def read (r : Reader) : List Char → Reader
  | [] => r
  | [c] => r.take c
  | c :: d :: cs =>
    if c == '\\' && r.region.escapes d then read (r.put [d] r.region) cs
    else read (r.take c) (d :: cs)

/-- The arguments of a line that has been read, unless it ends inside quotes. -/
def arguments? (r : Reader) : Option (List String) :=
  if r.region = .outside then some (r.close.words.map String.ofList) else none

end Reader

variable {g g' : Region} {c : Char} {cs u out token rest : List Char}

/-! ## What it reads -/

theorem Reader.read_cons {r : Reader} (h : c ≠ '\\' ∨ r.region = .single) (cs : List Char) :
    r.read (c :: cs) = (r.take c).read cs := by
  cases cs with
  | nil => rfl
  | cons d cs =>
    rw [read, if_neg]
    rcases h with hc | hr
    · simp [hc]
    · simp [hr, Region.escapes]

@[simp] theorem Reader.put_put (r : Reader) (cs ds : List Char) (g g' : Region) :
    (r.put cs g).put ds g' = r.put (cs ++ ds) g' := by
  simp [put]

theorem Reader.put_nil {r : Reader} (h : r.word?.isSome = true) : r.put [] r.region = r := by
  obtain ⟨w, hw⟩ := Option.isSome_iff_exists.mp h
  rw [put, hw, Option.getD_some, List.append_nil, ← hw]

theorem Reader.read_blank {r : Reader} (hr : r.region = .outside) (hc : isAsciiBlank c = true)
    (cs : List Char) : r.read (c :: cs) = r.close.read cs := by
  have hsingle : c ≠ '\'' := ne_of_isAsciiBlank hc rfl
  have hdouble : c ≠ '"' := ne_of_isAsciiBlank hc rfl
  rw [read_cons (.inl (ne_of_isAsciiBlank hc rfl)), take, hr]
  simp [hc, hsingle, hdouble]

theorem Reader.close_eq {r : Reader} (h : r.word? = none) : r.close = r := by
  rw [close, h, Option.toList_none, List.append_nil, ← h]

theorem Reader.read_blanks {r : Reader} {gap : List Char}
    (hgap : ∀ c ∈ gap, isAsciiBlank c = true) (hr : r.region = .outside) (hword : r.word? = none)
    (cs : List Char) : r.read (gap ++ cs) = r.read cs := by
  induction gap with
  | nil => rfl
  | cons c gap ih =>
    obtain ⟨hc, hgap⟩ := List.forall_mem_cons.mp hgap
    rw [List.cons_append, read_blank hr hc, close_eq hword, ih hgap]

namespace Piece

/-- A piece of one character is not a backslash that escapes. -/
theorem ne_backslash (h : Piece g [c] out g') : c ≠ '\\' ∨ g = .single := by
  cases h with
  | opening hq =>
    left
    rintro rfl
    cases g' <;> cases hq
  | closing hq =>
    left
    rintro rfl
    cases g <;> cases hq
  | plain hc =>
    cases g with
    | single => exact .inr rfl
    | outside | double =>
      left
      rintro rfl
      cases hc

theorem take (h : Piece g [c] out g') {r : Reader} (hr : r.region = g) :
    r.take c = r.put out g' := by
  rw [Reader.take, hr]
  cases h with
  | opening hq => cases g' <;> cases hq <;> rfl
  | closing hq => cases g <;> cases hq <;> rfl
  | plain hc =>
    cases g with
    | outside | single | double =>
      simp only [Region.isPlain, Bool.not_eq_true', Bool.or_eq_false_iff, bne_iff_ne,
        beq_eq_false_iff_ne] at hc
      simp [hc]

theorem reads_one (h : Piece g [c] out g') {r : Reader} (hr : r.region = g) (rest : List Char) :
    r.read (c :: rest) = (r.put out g').read rest := by
  rw [Reader.read_cons (hr ▸ h.ne_backslash), h.take hr]

theorem reads (h : Piece g u out g') {r : Reader} (hr : r.region = g) (rest : List Char) :
    r.read (u ++ rest) = (r.put out g').read rest := by
  cases h with
  | opening hq => exact reads_one (.opening hq) hr rest
  | closing hq => exact reads_one (.closing hq) hr rest
  | plain hc => exact reads_one (.plain hc) hr rest
  | @escaped g c hc =>
    show r.read ('\\' :: c :: rest) = _
    rw [Reader.read, if_pos (by rw [hr, hc]; rfl), hr]
  | @kept c hc =>
    show r.read ('\\' :: c :: rest) = _
    have hplain : Region.double.isPlain c = true := by
      simpa [Region.isPlain, Region.escapes] using hc
    have htake : r.take '\\' = r.put ['\\'] .double := by
      rw [Reader.take, hr]
      rfl
    rw [Reader.read, if_neg (by rw [hr, hc]; decide), htake, reads_one (.plain hplain) rfl,
      Reader.put_put]
    rfl

end Piece

theorem Lexes.read_eq (h : Lexes g token out g' rest) {r : Reader} (hr : r.region = g)
    (hword : token = [] → r.word?.isSome = true) :
    r.read (token ++ rest) = (r.put out g').read rest := by
  induction h generalizing r with
  | line g => rw [← hr, Reader.put_nil (hword rfl), List.append_nil]
  | blank hc => rw [← hr, Reader.put_nil (hword rfl), List.nil_append]
  | backslash hg =>
    subst hr
    show r.take '\\' = r.put ['\\'] r.region
    rw [Reader.take]
    cases hr : r.region with
    | single => exact absurd hr hg
    | outside | double => rfl
  | piece hpiece _ ih =>
    rw [List.append_assoc, hpiece.reads hr, ih rfl fun _ => rfl, Reader.put_put]

/-- The reader has the same arguments, and ends inside quotes if and only if a token does. -/
theorem Cut.read_eq {parts : List Part} (h : Cut cs parts) {r : Reader} (hr : r.region = .outside)
    (hword : r.word? = none) :
    (r.read cs).close.words = r.words ++ parts.map Part.out ∧
      ((r.read cs).region = .outside ↔ ∀ part ∈ parts, part.region = .outside) := by
  -- By induction on the cut. In front of each part the reader is outside quotes and arguments.
  induction h generalizing r with
  | @blanks gap hgap =>
    have hread := Reader.read_blanks hgap hr hword []
    rw [List.append_nil] at hread
    rw [hread, Reader.read, Reader.close_eq hword, List.map_nil, List.append_nil]
    exact ⟨rfl, iff_of_true hr (List.forall_mem_nil _)⟩
  | @part gap token out rest g parts hgap htoken hlexes hrest ih =>
    rw [List.append_assoc, Reader.read_blanks hgap hr hword,
      hlexes.read_eq hr fun h => absurd h htoken]
    cases rest with
    | nil =>
      obtain rfl := hrest.parts_nil
      simp [Reader.read, Reader.close, Reader.put, hword]
    | cons c rest =>
      obtain rfl := hlexes.outside (List.cons_ne_nil c rest)
      have hc : isAsciiBlank c = true := hlexes.head_rest c rfl
      -- The blank completes the argument, and a second one would do nothing more.
      have hclose : (r.put out .outside).read (c :: rest) =
          (r.put out .outside).close.read (c :: rest) := by
        rw [Reader.read_blank rfl hc, Reader.read_blank rfl hc,
          Reader.close_eq (r := (r.put out .outside).close) rfl]
      obtain ⟨hwords, hregion⟩ := ih (r := (r.put out .outside).close) rfl rfl
      rw [hclose, hwords, hregion]
      simp [Reader.close, Reader.put, hword]

/-- Tokens that all end outside quotes are what they stand for, and there are no arguments if one of
them does not. -/
theorem mapM_unquoteFrom {parts : List Part} (h : ∀ part ∈ parts,
      unquoteFrom none part.token = if part.region = .outside then some part.out else none) :
    ((parts.map Part.token).mapM fun token => (unquoteFrom none token).map String.ofList) =
      if ∀ part ∈ parts, part.region = .outside then
        some ((parts.map Part.out).map String.ofList) else none := by
  induction parts with
  | nil => rfl
  | cons part parts ih =>
    obtain ⟨hpart, hparts⟩ := List.forall_mem_cons.mp h
    have hcons : (∀ p ∈ part :: parts, p.region = .outside) ↔
        part.region = .outside ∧ ∀ p ∈ parts, p.region = .outside := List.forall_mem_cons
    rw [List.map_cons, List.mapM_cons, ih hparts, hpart]
    by_cases hregion : part.region = .outside
    · by_cases hall : ∀ part ∈ parts, part.region = .outside
      · rw [if_pos hregion, if_pos hall, if_pos (hcons.mpr ⟨hregion, hall⟩)]
        rfl
      · rw [if_pos hregion, if_neg hall, if_neg fun h => hall (hcons.mp h).2]
        rfl
    · rw [if_neg hregion, if_neg fun h => hregion (hcons.mp h).1]
      rfl

/-- Cutting a line and unquoting the tokens gives what the one reader gives. -/
theorem split?_eq_arguments? (line : String) :
    split? line = (Reader.read {} line.toList).arguments? := by
  obtain ⟨parts, hparts⟩ := exists_cut line.toList
  obtain ⟨hwords, hregion⟩ := hparts.read_eq (r := {}) rfl rfl
  rw [split?, hparts.tokens_eq, mapM_unquoteFrom hparts.unquoteFrom_eq, Reader.arguments?, hwords]
  simp only [hregion]
  rfl

end Stepwise.Command
