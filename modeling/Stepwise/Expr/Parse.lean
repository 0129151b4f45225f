import Stepwise.Expr.Tree

/-!
# Reading expressions

The grammar, loosest binding first:

    or         := and (("or" | "||") and)*
    and        := not (("and" | "&&") not)*
    not        := ("not" | "!") not | comparison
    comparison := sum (relation sum)*
    sum        := term (("+" | "-") term)*
    term       := signed (("*" | "/" | "//" | "%") signed)*
    signed     := ("-" | "+") signed | postfix
    postfix    := primary ("[" or "]")*
    primary    := literal | name | name "(" items ")" | "(" or ")" | "[" items "]"
    items      := (or ("," or)* ","?)?

Constructs that hold an expression inside them nest at most `maxDepth` deep. A `Level` holds the
readers of what may stand inside such constructs, built from the level below; at the bottom there
is none. So the reader recurses over the depth that is left, and its loops over the tokens.
-/

namespace Stepwise.Expr

/-- Why tokens are no expression. -/
inductive ParseFault where
  | token (fault : TokenFault)
  | empty
  | unexpected (token : Token)
  | unexpectedEnd
  | expected (mark : Mark) (found : Option Token)
  | tooDeep
  | attributeAccess
deriving DecidableEq

/-- Reads an expression from the first tokens and returns the others. -/
abbrev Parser := List Token → Except ParseFault (Expr × List Token)

/-- How many constructs may be open inside each other. -/
def maxDepth : Nat := 64

/-- The readers of what stands one construct deeper. -/
structure Level where
  anything : Parser
  negated : Parser
  signed : Parser

/-- Reads one construct deeper, if the depth allows it. -/
def deeper (inner : Option Level) (part : Level → Parser) : Parser :=
  match inner with
  | some level => part level
  | none => fun _ => .error .tooDeep

/-- Goes on with operands joined by links, to the left. -/
def chainFrom (operand : Parser) (link : Token → Option (Expr → Expr → Expr)) :
    Nat → Expr → Parser
  | 0, left, tokens => .ok (left, tokens)
  | _, left, [] => .ok (left, [])
  | fuel + 1, left, token :: tokens =>
    match link token with
    | none => .ok (left, token :: tokens)
    | some join =>
      match operand tokens with
      | .error e => .error e
      | .ok (right, rest) => chainFrom operand link fuel (join left right) rest

/-- Operands joined by links, to the left. Every link takes a token, which bounds their number. -/
def chain (operand : Parser) (link : Token → Option (Expr → Expr → Expr)) : Parser := fun tokens =>
  match operand tokens with
  | .error e => .error e
  | .ok (first, rest) => chainFrom operand link rest.length first rest

/-! ## Items and postfixes -/

/-- Takes the given mark. -/
def expect (mark : Mark) : List Token → Except ParseFault (List Token)
  | .mark m :: rest => if m = mark then .ok rest else .error (.expected mark (some (.mark m)))
  | token :: _ => .error (.expected mark (some token))
  | [] => .error (.expected mark none)

/-- Reads items up to and including the closing mark; `done` holds those read, backwards. -/
def itemsFrom (item : Parser) (close : Mark) :
    Nat → List Expr → List Token → Except ParseFault (List Expr × List Token)
  | 0, done, tokens => (expect close tokens).map (done.reverse, ·)
  | fuel + 1, done, tokens =>
    if tokens.head? = some (.mark close) then .ok (done.reverse, tokens.tail)
    else
      match item tokens with
      | .error e => .error e
      | .ok (e, .mark .comma :: rest) => itemsFrom item close fuel (e :: done) rest
      | .ok (e, rest) => (expect close rest).map ((e :: done).reverse, ·)

/-- Items separated by commas, with or without one behind the last, and the closing mark. -/
def items (inner : Option Level) (close : Mark) (tokens : List Token) :
    Except ParseFault (List Expr × List Token) :=
  match inner with
  | none => .error .tooDeep
  | some level => itemsFrom level.anything close (tokens.length + 1) [] tokens

/-- An expression between a mark already taken and the closing one. -/
def enclosed (inner : Option Level) (close : Mark) : Parser := fun tokens =>
  match deeper inner Level.anything tokens with
  | .error e => .error e
  | .ok (e, rest) => (expect close rest).map (e, ·)

/-- Goes on with subscripts. An attribute access behind them is refused. -/
def subscripts (inner : Option Level) : Nat → Expr → Parser
  | fuel + 1, target, .mark .openBracket :: tokens =>
    match enclosed inner .closeBracket tokens with
    | .error e => .error e
    | .ok (position, rest) => subscripts inner fuel (.index target position) rest
  | _, _, .mark .dot :: _ => .error .attributeAccess
  | _, target, tokens => .ok (target, tokens)

/-- The literals that are written as words. -/
def wordLiteral? : String → Option Value
  | "True" | "true" => some (.bool true)
  | "False" | "false" => some (.bool false)
  | "None" | "null" => some .null
  | _ => none

/-- The words that are operators and never names. -/
def isOperatorWord (word : String) : Bool :=
  word == "and" || word == "or" || word == "not" || word == "in"

/-- What a name stands for: a literal, a call or a variable. -/
def named (inner : Option Level) (word : String) (tokens : List Token) :
    Except ParseFault (Expr × List Token) :=
  match wordLiteral? word with
  | some v => .ok (.lit v, tokens)
  | none =>
    if isOperatorWord word then .error (.unexpected (.name word))
    else
      match tokens with
      | .mark .openParen :: rest =>
        (items inner .closeParen rest).map fun (arguments, rest) => (.call word arguments, rest)
      | _ => .ok (.var word, tokens)

/-- A literal, a name, a call, a list, or an expression in parentheses. -/
def primary (inner : Option Level) : Parser
  | [] => .error .unexpectedEnd
  | .int n :: rest => .ok (.lit (.int n), rest)
  | .float x :: rest => .ok (.lit (.float x), rest)
  | .str s :: rest => .ok (.lit (.str s), rest)
  | .name word :: rest => named inner word rest
  | .mark .openParen :: rest => enclosed inner .closeParen rest
  | .mark .openBracket :: rest =>
    (items inner .closeBracket rest).map fun (es, rest) => (.list es, rest)
  | token :: _ => .error (.unexpected token)

/-- A primary expression and its subscripts. -/
def postfixed (inner : Option Level) : Parser := fun tokens =>
  match primary inner tokens with
  | .error e => .error e
  | .ok (e, rest) => subscripts inner (rest.length + 1) e rest

/-- Signs before an expression; a plus leaves no trace. -/
def signed (inner : Option Level) : Parser
  | .mark .minus :: rest => (deeper inner Level.signed rest).map fun (e, rest) => (.neg e, rest)
  | .mark .plus :: rest => deeper inner Level.signed rest
  | tokens => postfixed inner tokens

/-! ## Operators between operands -/

/-- The operators of products. -/
def productLink : Token → Option (Expr → Expr → Expr)
  | .mark .times => some (.arith .mul)
  | .mark .slash => some (.arith .div)
  | .mark .doubleSlash => some (.arith .floorDiv)
  | .mark .percent => some (.arith .mod)
  | _ => none

/-- The operators of sums. -/
def sumLink : Token → Option (Expr → Expr → Expr)
  | .mark .plus => some (.arith .add)
  | .mark .minus => some (.arith .sub)
  | _ => none

/-- A product. -/
def product (inner : Option Level) : Parser := chain (signed inner) productLink

/-- A sum. -/
def sum (inner : Option Level) : Parser := chain (product inner) sumLink

/-- The relation the tokens begin with. -/
def relation? : List Token → Option (Relation × List Token)
  | .mark .equal :: rest => some (.eq, rest)
  | .mark .unequal :: rest => some (.ne, rest)
  | .mark .less :: rest => some (.lt, rest)
  | .mark .atMost :: rest => some (.le, rest)
  | .mark .greater :: rest => some (.gt, rest)
  | .mark .atLeast :: rest => some (.ge, rest)
  | .name "in" :: rest => some (.isIn, rest)
  | .name "not" :: .name "in" :: rest => some (.notIn, rest)
  | _ => none

/-- Goes on with the links of a comparison; `done` holds those read, backwards. -/
def linksFrom (operand : Parser) : Nat → List (Relation × Expr) → List Token →
    Except ParseFault (List (Relation × Expr) × List Token)
  | 0, done, tokens => .ok (done.reverse, tokens)
  | fuel + 1, done, tokens =>
    match relation? tokens with
    | none => .ok (done.reverse, tokens)
    | some (relation, rest) =>
      match operand rest with
      | .error e => .error e
      | .ok (e, rest) => linksFrom operand fuel ((relation, e) :: done) rest

/-- A sum, or a chain of sums that are compared. -/
def comparison (inner : Option Level) : Parser := fun tokens =>
  match sum inner tokens with
  | .error e => .error e
  | .ok (first, rest) =>
    match linksFrom (sum inner) rest.length [] rest with
    | .error e => .error e
    | .ok ([], rest) => .ok (first, rest)
    | .ok (links, rest) => .ok (.compare first links, rest)

/-- Negations before a comparison. -/
def negated (inner : Option Level) : Parser
  | .name "not" :: rest | .mark .bang :: rest =>
    (deeper inner Level.negated rest).map fun (e, rest) => (.not e, rest)
  | tokens => comparison inner tokens

/-- The operator of conjunctions. -/
def bothLink : Token → Option (Expr → Expr → Expr)
  | .name "and" | .mark .both => some .and
  | _ => none

/-- The operator of disjunctions. -/
def eitherLink : Token → Option (Expr → Expr → Expr)
  | .name "or" | .mark .either => some .or
  | _ => none

/-- A conjunction. -/
def conjunction (inner : Option Level) : Parser := chain (negated inner) bothLink

/-- Any expression. -/
def anything (inner : Option Level) : Parser := chain (conjunction inner) eitherLink

/-! ## Whole expressions -/

/-- The level above another one. -/
def Level.above (inner : Option Level) : Level := ⟨Expr.anything inner, Expr.negated inner, Expr.signed inner⟩

/-- The level with a depth left: nothing may be opened at depth zero. -/
def level : Nat → Option Level
  | 0 => none
  | depth + 1 => some (Level.above (level depth))

/-- Reads tokens that are one expression. -/
def ofTokens (tokens : List Token) : Except ParseFault Expr :=
  if tokens.isEmpty then .error .empty
  else
    match anything (level maxDepth) tokens with
    | .error e => .error e
    | .ok (e, []) => .ok e
    | .ok (_, token :: _) => .error (.unexpected token)

/-- Reads a text that is one expression. -/
def parse (text : String) : Except ParseFault Expr :=
  match tokenize text with
  | .error fault => .error (.token fault)
  | .ok tokens => ofTokens tokens

end Stepwise.Expr
