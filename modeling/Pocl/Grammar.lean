import Pocl.Token
import Pocl.Tree

/-!
# Parsing

A rule of the grammar reads tokens from the front of a list. It answers the value it read with the
tokens after it, which are fewer than those it began with, or it fails at a token and says what was
due there. An expression is a chain of sums over products over operands. Both tiers fold to the
left, and a pair of parentheses leaves no trace in the tree. Nothing separates statements: each one
begins with a reserved word or a name, and an expression never takes in the token that begins the
next one.
A program is read to the end of the input, and the first error ends the parse.

## Main definitions

* `ParseError`: what was found, and what was expected; `ParseError.message`: the wording
* `Grammar.Parsed α bound`: a value with fewer than `bound` tokens after it
* `Grammar.Failure`: what was due, and the tokens from the offending one on
* `Grammar.expect`, `Grammar.expectIdentifier`: a token that must stand in front
* `Grammar.eat?`, `Grammar.eatSeparator?`, `Grammar.eatOperator?`: a token that may stand in front
* `Grammar.chain tier`, `Grammar.primary`, `Grammar.arguments`: the parts of an expression
* `Grammar.expression`, `Grammar.block`, `Grammar.statement`: the rules
* `Grammar.statements ts`: the statements that `ts` consists of
* `parse ts`: the program that `ts` spells, or the first error
* `parseSource source`: the program of a source text, or the first error

## Main results

* `Grammar.Failure.found_error`: an error reports the token at which the rule stopped
-/

namespace Pocl

/-! ## Parse errors -/

/-- A required token: its class and, for punctuation and reserved words, its lexeme. -/
structure Expected where
  kind : TokenKind
  lexeme : Option String
  deriving DecidableEq, Repr

/-- The wording of a required token. -/
def Expected.render (expected : Expected) : String :=
  match expected.lexeme with
  | some lexeme => expected.kind.name ++ " `" ++ lexeme ++ "`"
  | none => expected.kind.name

/-- Why parsing stopped. What was found is a token, or nothing at the end of the input. -/
inductive ParseError where
  /-- A statement or an operand was due. -/
  | unexpected (found : Option Token)
  /-- One particular token was due. -/
  | mismatch (expected : Expected) (found : Option Token)
  deriving DecidableEq, Repr

namespace ParseError

/-- The token at which parsing stopped, or `none` at the end of the input. -/
def found : ParseError → Option Token
  | unexpected found => found
  | mismatch _ found => found

/-- The end offset of the token at which parsing stopped. -/
def position (e : ParseError) : Option Nat :=
  e.found.map Token.position

/-- Whether parsing stopped at the end of the input. -/
def atEnd (e : ParseError) : Bool :=
  e.found.isNone

/-- The wording of what was found. -/
def renderFound : Option Token → String
  | some t => t.render
  | none => "end of input"

/-- The wording of an error. -/
def message : ParseError → String
  | unexpected found => "unexpected token " ++ renderFound found
  | mismatch expected found =>
    "expected " ++ expected.render ++ ", found " ++ renderFound found

end ParseError

namespace Grammar

/-! ## Single steps -/

/-- A value read from a token list, with the tokens after it. -/
structure Parsed (α : Type) (bound : Nat) where
  value : α
  rest : List Token
  rest_lt : rest.length < bound

/-- Where a rule stopped: the required token, or `none` where a statement or an operand was due,
and the tokens from the offending one on. -/
structure Failure where
  expected : Option Expected
  rest : List Token
  deriving DecidableEq, Repr

/-- The error that a failure amounts to. -/
def Failure.error (f : Failure) : ParseError :=
  match f.expected with
  | none => .unexpected f.rest.head?
  | some expected => .mismatch expected f.rest.head?

theorem Failure.found_error (f : Failure) : f.error.found = f.rest.head? := by
  unfold error
  split <;> rfl

/-- The answer of a rule. -/
abbrev Answer (α : Type) (bound : Nat) := Except Failure (Parsed α bound)

/-! ### Tokens that must stand in front -/

/-- Reads the given token. -/
def expect (kind : TokenKind) (lexeme : String) (ts : List Token) : Answer Unit ts.length :=
  match ts with
  | [] => .error ⟨some ⟨kind, some lexeme⟩, []⟩
  | t :: us =>
    if t.is kind lexeme then .ok ⟨(), us, Nat.lt_succ_self _⟩
    else .error ⟨some ⟨kind, some lexeme⟩, t :: us⟩

/-- Reads an identifier and answers its name. -/
def expectIdentifier (ts : List Token) : Answer String ts.length :=
  match ts with
  | [] => .error ⟨some ⟨.identifier, none⟩, []⟩
  | t :: us =>
    if t.kind = .identifier then .ok ⟨t.lexeme, us, Nat.lt_succ_self _⟩
    else .error ⟨some ⟨.identifier, none⟩, t :: us⟩

/-! ### Tokens that may stand in front -/

/-- The first token's lexeme and the tokens after it, where the first token passes the test. -/
def eatIf? (p : Token → Bool) (ts : List Token) : Option (Parsed String ts.length) :=
  match ts with
  | [] => none
  | t :: us => if p t then some ⟨t.lexeme, us, Nat.lt_succ_self _⟩ else none

/-- Reads the given token, where it stands in front. -/
def eat? (kind : TokenKind) (lexeme : String) (ts : List Token) :
    Option (Parsed String ts.length) :=
  eatIf? (·.is kind lexeme) ts

/-- Reads a separator: a token of any class whose lexeme is a comma. -/
def eatSeparator? (ts : List Token) : Option (Parsed String ts.length) :=
  eatIf? (·.lexeme = ",") ts

/-- Reads one of the given operators. -/
def eatOperator? (operators : List String) (ts : List Token) :
    Option (Parsed String ts.length) :=
  eatIf? (fun t => t.kind = .operator && operators.contains t.lexeme) ts

/-! ## Expressions -/

/-- The two tiers of operators, the loose one and the tight one. -/
inductive Tier where
  | sum
  | product
  deriving DecidableEq, Repr

/-- The operators of a tier. -/
def Tier.operators : Tier → List String
  | sum => ["+", "-"]
  | product => ["*", "/"]

/-- How many tiers bind tighter, counting the operand itself. -/
def Tier.rank : Tier → Nat
  | sum => 2
  | product => 1

mutual

/-- A number, a name, a call, or an expression in parentheses. -/
def primary (ts : List Token) : Answer Node ts.length :=
  match ts with
  | [] => .error ⟨none, []⟩
  | t :: us =>
    if t.kind = .literal then .ok ⟨.number t.lexeme, us, Nat.lt_succ_self _⟩
    else if t.kind = .identifier then
      match eat? .paren "(" us with
      | none => .ok ⟨.identifier t.lexeme, us, Nat.lt_succ_self _⟩
      | some ⟨_, vs, h⟩ => do
        let ⟨args, rest, h'⟩ ← arguments vs
        .ok ⟨.functionCall t.lexeme args, rest, Nat.lt_succ_of_lt (Nat.lt_trans h' h)⟩
    else if t.is .paren "(" then do
      let ⟨tree, vs, h⟩ ← chain .sum us
      let ⟨_, rest, h'⟩ ← expect .paren ")" vs
      .ok ⟨tree, rest, Nat.lt_succ_of_lt (Nat.lt_trans h' h)⟩
    else .error ⟨none, t :: us⟩
termination_by (ts.length, 0, 0)
decreasing_by
  · exact Prod.Lex.left _ _ (Nat.lt_succ_of_lt h)
  · exact Prod.Lex.left _ _ (Nat.lt_succ_self _)

/-- An operand of a tier: a chain of the tighter tier, or a primary. -/
def operand (tier : Tier) (ts : List Token) : Answer Node ts.length :=
  match tier with
  | .sum => chain .product ts
  | .product => primary ts
termination_by (ts.length, tier.rank, 0)
decreasing_by
  · exact Prod.Lex.right _ (Prod.Lex.left _ _ (Nat.lt_succ_self _))
  · exact Prod.Lex.right _ (Prod.Lex.left _ _ (Nat.lt_succ_self _))

/-- A chain of operands of one tier. -/
def chain (tier : Tier) (ts : List Token) : Answer Node ts.length := do
  let ⟨left, us, h⟩ ← operand tier ts
  let ⟨tree, rest, h'⟩ ← chainFrom tier left us
  .ok ⟨tree, rest, Nat.lt_of_le_of_lt (Nat.le_of_lt_succ h') h⟩
termination_by (ts.length, tier.rank, 1)
decreasing_by
  · exact Prod.Lex.right _ (Prod.Lex.right _ (Nat.lt_succ_self _))
  · exact Prod.Lex.left _ _ h

/-- The operators and operands that go on with a chain, folded to the left onto `left`. -/
def chainFrom (tier : Tier) (left : Node) (ts : List Token) : Answer Node (ts.length + 1) :=
  match eatOperator? tier.operators ts with
  | none => .ok ⟨left, ts, Nat.lt_succ_self _⟩
  | some ⟨operator, us, h⟩ => do
    let ⟨right, vs, h'⟩ ← operand tier us
    let ⟨tree, rest, h''⟩ ← chainFrom tier (.binaryOp left operator right) vs
    .ok ⟨tree, rest, Nat.lt_trans h'' (Nat.succ_lt_succ (Nat.lt_trans h' h))⟩
termination_by (ts.length, 0, 0)
decreasing_by
  · exact Prod.Lex.left _ _ h
  · exact Prod.Lex.left _ _ (Nat.lt_trans h' h)

/-- The arguments of a call after its opening parenthesis, up to and including the closing one. -/
def arguments (ts : List Token) : Answer (List Node) ts.length :=
  match ts with
  | [] => .error ⟨some ⟨.paren, some ")"⟩, []⟩
  | t :: us =>
    if t.is .paren ")" then .ok ⟨[], us, Nat.lt_succ_self _⟩
    else do
      let ⟨first, vs, h⟩ ← chain .sum (t :: us)
      let ⟨others, ws, h'⟩ ← moreArguments vs
      let ⟨_, rest, h''⟩ ← expect .paren ")" ws
      .ok ⟨first :: others, rest,
        Nat.lt_trans h'' (Nat.lt_of_le_of_lt (Nat.le_of_lt_succ h') h)⟩
termination_by (ts.length, 3, 0)
decreasing_by
  · exact Prod.Lex.right _ (Prod.Lex.left _ _ (Nat.lt_succ_self _))
  · exact Prod.Lex.left _ _ h

/-- The further arguments of a call, each after a separator. -/
def moreArguments (ts : List Token) : Answer (List Node) (ts.length + 1) :=
  match eatSeparator? ts with
  | none => .ok ⟨[], ts, Nat.lt_succ_self _⟩
  | some ⟨_, us, h⟩ => do
    let ⟨argument, vs, h'⟩ ← chain .sum us
    let ⟨others, rest, h''⟩ ← moreArguments vs
    .ok ⟨argument :: others, rest, Nat.lt_trans h'' (Nat.succ_lt_succ (Nat.lt_trans h' h))⟩
termination_by (ts.length, 0, 0)
decreasing_by
  · exact Prod.Lex.left _ _ h
  · exact Prod.Lex.left _ _ (Nat.lt_trans h' h)

end

/-- An expression is a chain of sums. -/
def expression (ts : List Token) : Answer Node ts.length :=
  chain .sum ts

/-! ## Statements -/

/-! ### Statements without a block -/

/-- A call, a compound assignment or an assignment, which all begin with a name. -/
def assignmentOrCall (ts : List Token) : Answer Node ts.length := do
  let ⟨name, us, h⟩ ← expectIdentifier ts
  match eat? .paren "(" us with
  | some ⟨_, vs, h'⟩ => do
    let ⟨args, rest, h''⟩ ← arguments vs
    .ok ⟨.functionCall name args, rest, Nat.lt_trans h'' (Nat.lt_trans h' h)⟩
  | none =>
    match eat? .operator "+=" us with
    | some ⟨_, vs, h'⟩ => do
      let ⟨value, rest, h''⟩ ← expression vs
      .ok ⟨.compoundAssignment name "+=" value, rest, Nat.lt_trans h'' (Nat.lt_trans h' h)⟩
    | none => do
      let ⟨_, vs, h'⟩ ← expect .operator "=" us
      let ⟨value, rest, h''⟩ ← expression vs
      .ok ⟨.assignment name value, rest, Nat.lt_trans h'' (Nat.lt_trans h' h)⟩

/-- A print statement, which is a call with one argument. -/
def printStatement (ts : List Token) : Answer Node ts.length := do
  let ⟨_, us, h₁⟩ ← expect .keyword "print" ts
  let ⟨_, vs, h₂⟩ ← expect .paren "(" us
  let ⟨argument, ws, h₃⟩ ← expression vs
  let ⟨_, rest, h₄⟩ ← expect .paren ")" ws
  .ok ⟨.functionCall "print" [argument], rest,
    Nat.lt_trans h₄ (Nat.lt_trans h₃ (Nat.lt_trans h₂ h₁))⟩

/-! ### Function headers -/

/-- The further parameters of a function, each after a separator. -/
def moreParameters (ts : List Token) : Answer (List String) (ts.length + 1) :=
  match eatSeparator? ts with
  | none => .ok ⟨[], ts, Nat.lt_succ_self _⟩
  | some ⟨_, us, h⟩ => do
    let ⟨name, vs, h'⟩ ← expectIdentifier us
    let ⟨others, rest, h''⟩ ← moreParameters vs
    .ok ⟨name :: others, rest, Nat.lt_trans h'' (Nat.succ_lt_succ (Nat.lt_trans h' h))⟩
termination_by ts.length
decreasing_by exact Nat.lt_trans h' h

/-- The parameters of a function: none, unless an identifier stands in front. -/
def parameters (ts : List Token) : Answer (List String) (ts.length + 1) :=
  match eatIf? (·.kind = .identifier) ts with
  | none => .ok ⟨[], ts, Nat.lt_succ_self _⟩
  | some ⟨name, us, h⟩ => do
    let ⟨others, rest, h'⟩ ← moreParameters us
    .ok ⟨name :: others, rest, Nat.lt_trans h' (Nat.succ_lt_succ h)⟩

/-- The name and the parameters of a function, before its block. -/
def functionHeader (ts : List Token) : Answer (String × List String) ts.length := do
  let ⟨_, us, h₁⟩ ← expect .keyword "fn" ts
  let ⟨name, vs, h₂⟩ ← expectIdentifier us
  let ⟨_, ws, h₃⟩ ← expect .paren "(" vs
  let ⟨params, xs, h₄⟩ ← parameters ws
  let ⟨_, rest, h₅⟩ ← expect .paren ")" xs
  .ok ⟨(name, params), rest, Nat.lt_trans h₅
    (Nat.lt_of_le_of_lt (Nat.le_of_lt_succ h₄) (Nat.lt_trans h₃ (Nat.lt_trans h₂ h₁)))⟩

/-! ### Statements with a block -/

mutual

/-- A conditional. -/
def ifStatement (ts : List Token) : Answer Node ts.length := do
  let ⟨_, us, h₁⟩ ← expect .keyword "if" ts
  let ⟨condition, vs, h₂⟩ ← expression us
  let ⟨body, rest, h₃⟩ ← block vs
  .ok ⟨.ifStatement condition body, rest, Nat.lt_trans h₃ (Nat.lt_trans h₂ h₁)⟩
termination_by (ts.length, 0)
decreasing_by exact Prod.Lex.left _ _ (Nat.lt_trans h₂ h₁)

/-- A function declaration. -/
def functionDecl (ts : List Token) : Answer Node ts.length := do
  let ⟨(name, params), us, h₁⟩ ← functionHeader ts
  let ⟨body, rest, h₂⟩ ← block us
  .ok ⟨.functionDecl name params body, rest, Nat.lt_trans h₂ h₁⟩
termination_by (ts.length, 0)
decreasing_by exact Prod.Lex.left _ _ h₁

/-- Statements between braces. -/
def block (ts : List Token) : Answer (List Node) ts.length := do
  let ⟨_, us, h₁⟩ ← expect .brace "\x7b" ts
  let ⟨body, vs, h₂⟩ ← blockBody us
  let ⟨_, rest, h₃⟩ ← expect .brace "\x7d" vs
  .ok ⟨body, rest, Nat.lt_trans h₃ (Nat.lt_of_le_of_lt (Nat.le_of_lt_succ h₂) h₁)⟩
termination_by (ts.length, 0)
decreasing_by exact Prod.Lex.left _ _ h₁

/-- The statements before a closing brace or the end of the input. -/
def blockBody (ts : List Token) : Answer (List Node) (ts.length + 1) :=
  match ts with
  | [] => .ok ⟨[], [], Nat.lt_succ_self _⟩
  | t :: us =>
    if t.is .brace "\x7d" then .ok ⟨[], t :: us, Nat.lt_succ_self _⟩
    else do
      let ⟨first, vs, h⟩ ← statement (t :: us)
      let ⟨others, rest, h'⟩ ← blockBody vs
      .ok ⟨first :: others, rest, Nat.lt_trans h' (Nat.succ_lt_succ h)⟩
termination_by (ts.length, 2)
decreasing_by
  · exact Prod.Lex.right _ (Nat.lt_succ_self _)
  · exact Prod.Lex.left _ _ h

/-- Any statement, told apart by its first token. -/
def statement (ts : List Token) : Answer Node ts.length :=
  match ts with
  | [] => .error ⟨none, []⟩
  | t :: us =>
    if t.is .keyword "fn" then functionDecl (t :: us)
    else if t.is .keyword "if" then ifStatement (t :: us)
    else if t.is .keyword "print" then printStatement (t :: us)
    else if t.kind = .identifier then assignmentOrCall (t :: us)
    else .error ⟨none, t :: us⟩
termination_by (ts.length, 1)
decreasing_by
  · exact Prod.Lex.right _ (Nat.lt_succ_self _)
  · exact Prod.Lex.right _ (Nat.lt_succ_self _)

end

end Grammar

/-! ## Programs -/

/-- The statements that a whole token list consists of. -/
def Grammar.statements (ts : List Token) : Except Failure (List Node) :=
  match ts with
  | [] => .ok []
  | t :: us => do
    let ⟨first, rest, _⟩ ← statement (t :: us)
    let others ← statements rest
    .ok (first :: others)
termination_by ts.length
decreasing_by assumption

/-- The program that a token list spells, or the first error in it. -/
def parse (ts : List Token) : Except ParseError Program :=
  match Grammar.statements ts with
  | .ok statements => .ok ⟨statements⟩
  | .error failure => .error failure.error

/-- The program of a source text, or the first error in it. -/
def parseSource (source : String) : Except ParseError Program :=
  parse (scan source)

end Pocl
