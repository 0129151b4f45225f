import Stepwise.Text.Numeric
import Stepwise.Text.Blank
import Stepwise.Text.Word
import Stepwise.Double.Written
import Stepwise.Double.Read

/-!
# Tokens of expressions

Expression text is a row of numbers, quoted strings, names and marks, with blanks anywhere between
them. The longest mark that fits is taken, digits may be grouped by underscores, and a backslash in
a string stands for the character behind it or for a line feed, tab or carriage return.

* `tokenize`: the tokens of a text.
* `length_next`: every token consumes part of the text.
-/

namespace Stepwise.Expr

/-- The punctuation of expressions. -/
inductive Mark where
  | doubleSlash | equal | unequal | atMost | atLeast | both | either
  | plus | minus | times | slash | percent | less | greater | bang
  | openParen | closeParen | openBracket | closeBracket | comma | dot
deriving Repr, DecidableEq

/-- How a mark is written. -/
def Mark.text : Mark → String
  | doubleSlash => "//"
  | equal => "=="
  | unequal => "!="
  | atMost => "<="
  | atLeast => ">="
  | both => "&&"
  | either => "||"
  | plus => "+"
  | minus => "-"
  | times => "*"
  | slash => "/"
  | percent => "%"
  | less => "<"
  | greater => ">"
  | bang => "!"
  | openParen => "("
  | closeParen => ")"
  | openBracket => "["
  | closeBracket => "]"
  | comma => ","
  | dot => "."

/-- All marks, those of two characters first. -/
def Mark.all : List Mark :=
  [doubleSlash, equal, unequal, atMost, atLeast, both, either, plus, minus, times, slash, percent,
   less, greater, bang, openParen, closeParen, openBracket, closeBracket, comma, dot]

/-- A token. -/
inductive Token where
  | int (n : Int)
  | float (x : Float)
  | str (s : String)
  | name (s : String)
  | mark (m : Mark)
deriving DecidableEq

/-- Why text is not a row of tokens. -/
inductive TokenFault where
  | strayCharacter (c : Char)
  | badNumber (lexeme : String)
  | openString
deriving Repr, DecidableEq

/-- What a token is called in messages. -/
def Token.describe : Token → String
  | int n => "number " ++ toString n
  | float x => "number " ++ Double.write .data x
  | str _ => "string literal"
  | name s => "'" ++ s ++ "'"
  | mark m => "'" ++ m.text ++ "'"

/-! ## Numbers -/

/-- The characters of a number: digits and underscores, one point that a digit follows and that
stands before any exponent, and exponent marks with a sign or digit behind them. The flag says
whether the number has a point or an exponent. -/
def numberLexeme (fractional : Bool) : List Char → List Char × Bool × List Char
  | [] => ([], fractional, [])
  | c :: cs =>
    if c.isDigit || c == '_' then
      let (lexeme, f, rest) := numberLexeme fractional cs
      (c :: lexeme, f, rest)
    else
      match cs with
      | [] => ([], fractional, [c])
      | d :: rest =>
        if c == '.' && !fractional && d.isDigit then
          let (lexeme, f, rest) := numberLexeme true rest
          (c :: d :: lexeme, f, rest)
        else if (c == 'e' || c == 'E') && (d.isDigit || d == '-' || d == '+') then
          let (lexeme, f, rest) := numberLexeme true rest
          (c :: d :: lexeme, f, rest)
        else ([], fractional, c :: d :: rest)

/-- The number a lexeme stands for. Integers have 64 bits and a sign, doubles are finite. -/
def numberToken (lexeme : List Char) (fractional : Bool) : Except TokenFault Token :=
  let digits := String.ofList (lexeme.filter (· != '_'))
  if fractional then
    match Double.read digits with
    | some x => if x.isFinite then .ok (.float x) else .error (.badNumber digits)
    | none => .error (.badNumber digits)
  else
    match Double.readInt64 digits with
    | some n => .ok (.int n)
    | none => .error (.badNumber digits)

/-! ## Strings and names -/

/-- The character a backslash and this one stand for. -/
def unescape : Char → Char
  | 'n' => '\n'
  | 't' => '\t'
  | 'r' => '\r'
  | c => c

/-- The characters of a string up to its closing quote, and the text behind it. -/
def readQuoted (quote : Char) : List Char → Option (List Char × List Char)
  | [] => none
  | c :: cs =>
    if c = quote then some ([], cs)
    else if c = '\\' then
      match cs with
      | [] => none
      | d :: cs => (readQuoted quote cs).map fun (s, rest) => (unescape d :: s, rest)
    else (readQuoted quote cs).map fun (s, rest) => (c :: s, rest)

/-- A character a name may begin with. -/
def beginsName (c : Char) : Bool := c == '_' || Text.isAlphabetic c

/-- A character a name may go on with. -/
def continuesName (c : Char) : Bool := c == '_' || Text.isAlphanumeric c

/-- Reads a mark. -/
def readMark (cs : List Char) : Option (Mark × List Char) :=
  Mark.all.findSome? fun m => (Text.behind? m.text.toList cs).map (m, ·)

/-! ## The tokens of a text -/

/-- Reads the token that begins with the first character. -/
def next (c : Char) (cs : List Char) : Except TokenFault (Token × List Char) :=
  if c.isDigit then
    let (lexeme, fractional, rest) := numberLexeme false (c :: cs)
    (numberToken lexeme fractional).map (·, rest)
  else if c == '\'' || c == '"' then
    match readQuoted c cs with
    | some (s, rest) => .ok (.str (String.ofList s), rest)
    | none => .error .openString
  else if beginsName c then
    .ok (.name (String.ofList (c :: cs.takeWhile continuesName)), cs.dropWhile continuesName)
  else
    match readMark (c :: cs) with
    | some (m, rest) => .ok (.mark m, rest)
    | none => .error (.strayCharacter c)

theorem length_numberLexeme (f : Bool) (cs : List Char) :
    (numberLexeme f cs).2.2.length ≤ cs.length := by
  fun_induction numberLexeme f cs <;> grind

theorem length_readQuoted {q : Char} {cs s rest : List Char} (h : readQuoted q cs = some (s, rest)) :
    rest.length < cs.length := by
  fun_induction readQuoted q cs generalizing s rest with
  | case1 => cases h
  | case2 => cases h; simp
  | case3 => cases h
  | case4 _ d cs' ih =>
    obtain ⟨⟨s', r'⟩, hr, he⟩ := Option.map_eq_some_iff.1 h
    cases he
    have := ih hr
    simp only [List.length_cons]
    omega
  | case5 c cs _ _ ih =>
    obtain ⟨⟨s', r'⟩, hr, he⟩ := Option.map_eq_some_iff.1 h
    cases he
    have := ih hr
    simp only [List.length_cons]
    omega

theorem length_readMark {cs rest : List Char} {m : Mark} (h : readMark cs = some (m, rest)) :
    rest.length < cs.length := by
  obtain ⟨m', _, h'⟩ := List.exists_of_findSome?_eq_some h
  obtain ⟨r, hr, he⟩ := Option.map_eq_some_iff.1 h'
  cases he
  have hl : 0 < m.text.toList.length := by cases m <;> decide
  rw [Text.behind?_eq_some_iff.1 hr, List.length_append]
  omega

theorem length_next {c : Char} {cs rest : List Char} {t : Token}
    (h : next c cs = .ok (t, rest)) : rest.length ≤ cs.length := by
  unfold next at h
  split at h
  · next hd =>
    have hl := length_numberLexeme false cs
    have he : numberLexeme false (c :: cs) =
        (c :: (numberLexeme false cs).1, (numberLexeme false cs).2.1,
          (numberLexeme false cs).2.2) := by
      rw [numberLexeme.eq_def]
      dsimp only
      rw [if_pos (by simp [hd])]
    rw [he] at h
    dsimp only at h
    cases hn : numberToken (c :: (numberLexeme false cs).1) (numberLexeme false cs).2.1 with
    | error e => rw [hn] at h; cases h
    | ok t => rw [hn] at h; cases h; exact hl
  · split at h
    · split at h
      · next hr => cases h; exact Nat.le_of_lt (length_readQuoted hr)
      · cases h
    · split at h
      · cases h
        exact (List.dropWhile_sublist _).length_le
      · split at h
        · next hr =>
          cases h
          have := length_readMark hr
          simp only [List.length_cons] at this
          omega
        · cases h

/-- The tokens of the characters. -/
def tokens (cs : List Char) : Except TokenFault (List Token) :=
  match _h : cs.dropWhile Text.isBlank with
  | [] => .ok []
  | c :: cs' =>
    match _hn : next c cs' with
    | .error e => .error e
    | .ok (t, rest) => (tokens rest).map (t :: ·)
termination_by cs.length
decreasing_by
  have h1 := length_next _hn
  have h2 : (cs.dropWhile Text.isBlank).length ≤ cs.length := (List.dropWhile_sublist _).length_le
  rw [_h] at h2
  simp only [List.length_cons] at h2
  omega

/-- The tokens of a text. -/
def tokenize (text : String) : Except TokenFault (List Token) := tokens text.toList

end Stepwise.Expr
