import Stepwise.Text.Blank

/-!
# Command lines

A command line is split into arguments at blanks outside quotes. Single and double quotes group, a
backslash outside single quotes takes the next character along, and in double quotes it escapes
only a double quote or a backslash. A line that leaves a quote open has no arguments at all.

* `tokens`: the line cut at blanks, quotes and backslashes still in place.
* `split?`: the arguments of a line.
-/

namespace Stepwise.Command

open Text

/-- The quotes that are open. -/
structure Quoting where
  single : Bool := false
  double : Bool := false

/-- Reads the token the characters begin with, and returns what follows it. -/
def tokenFrom (q : Quoting) : List Char → List Char × List Char
  | [] => ([], [])
  | [c] =>
    if !q.single && !q.double && isAsciiBlank c then ([], [c]) else ([c], [])
  | c :: d :: cs =>
    if c == '\\' && !q.single then
      let (token, rest) := tokenFrom q cs
      (c :: d :: token, rest)
    else if !q.single && !q.double && isAsciiBlank c then ([], c :: d :: cs)
    else
      let q :=
        if c == '\'' && !q.double then { q with single := !q.single }
        else if c == '"' && !q.single then { q with double := !q.double }
        else q
      let (token, rest) := tokenFrom q (d :: cs)
      (c :: token, rest)

theorem length_tokenFrom (q : Quoting) (cs : List Char) :
    (tokenFrom q cs).2.length ≤ cs.length := by
  fun_induction tokenFrom q cs <;> grind

theorem length_tokenFrom_lt {c : Char} (h : isAsciiBlank c = false) (cs : List Char) :
    (tokenFrom {} (c :: cs)).2.length < (c :: cs).length := by
  cases cs with
  | nil => simp [tokenFrom, h]
  | cons d cs =>
    have h1 := length_tokenFrom {} cs
    have h2 := fun q => length_tokenFrom q (d :: cs)
    rw [tokenFrom]
    dsimp only
    split
    · simp only [List.length_cons]; omega
    · rw [if_neg (by simp [h])]
      exact Nat.lt_succ_of_le (h2 _)

theorem not_blank_of_dropWhile {cs cs' : List Char} {c : Char}
    (h : cs.dropWhile isAsciiBlank = c :: cs') : isAsciiBlank c = false := by
  have := List.head?_dropWhile_not isAsciiBlank cs
  rw [h] at this
  simpa using this

/-- The tokens of the characters. -/
def tokens (cs : List Char) : List (List Char) :=
  match _h : cs.dropWhile isAsciiBlank with
  | [] => []
  | c :: cs' => (tokenFrom {} (c :: cs')).1 :: tokens (tokenFrom {} (c :: cs')).2
termination_by cs.length
decreasing_by
  have h1 := length_tokenFrom_lt (not_blank_of_dropWhile _h) cs'
  have h2 : (cs.dropWhile isAsciiBlank).length ≤ cs.length := (List.dropWhile_sublist _).length_le
  rw [_h] at h2
  omega

/-- A token without its quotes and escapes, unless it ends inside the open quote. -/
def unquoteFrom : Option Char → List Char → Option (List Char)
  | none, [] => some []
  | some _, [] => none
  | quote, c :: cs =>
    if quote == some c then unquoteFrom none cs
    else if quote == none && (c == '\'' || c == '"') then unquoteFrom (some c) cs
    else if c == '\\' && quote != some '\'' then
      match cs with
      | [] => (unquoteFrom quote []).map (c :: ·)
      | d :: cs =>
        if quote == none || d == '"' || d == '\\' then (unquoteFrom quote cs).map (d :: ·)
        else (unquoteFrom quote cs).map fun rest => c :: d :: rest
    else (unquoteFrom quote cs).map (c :: ·)

/-- The arguments of a command line, unless it leaves a quote open. -/
def split? (line : String) : Option (List String) :=
  (tokens line.toList).mapM fun token => (unquoteFrom none token).map String.ofList

end Stepwise.Command
