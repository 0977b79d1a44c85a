import Pocl.Grammar

/-!
# Reading with a cursor

A cursor stands in front of one token of a list, or behind the last one. Reading looks at that
token and moves the cursor over it, or it stops with an error that reports the token. Operands,
arguments, parameters and statements are read in loops, which go on as long as the token in front of
the cursor tells them to. Calls nest up to a given depth, where a loop calls itself for its next
round, and a reading that needs to go deeper has no answer. Nothing else bounds the loops and calls,
so that a reading that goes on for ever has no answer at any depth.

## Main definitions

* `Cursor`: a token list and a position in it
* `Reading α`: a computation that moves a cursor, and ends with a value or an error if it ends
* `exhausted`: the reading that does not end, for want of depth
* `peek`, `advance`, `stands`, `eatIf?`, `expect`, `expectIdentifier`: the steps
* `chainLoop`, `argumentLoop`, `parameterLoop`, `blockLoop`, `programLoop`: the loops
* `statement`, …, `primary`: the rules of the grammar
* `Reading.parse depth ts`: the program that `ts` spells, or the first error
-/

namespace Pocl.Grammar

/-- A token list with a position in it. -/
structure Cursor where
  tokens : List Token
  position : Nat
  deriving DecidableEq, Repr

namespace Cursor

/-- The token in front of the cursor, or `none` behind the last one. -/
def token? (s : Cursor) : Option Token :=
  s.tokens[s.position]?

/-- The cursor behind the token in front of it. -/
def next (s : Cursor) : Cursor :=
  { s with position := s.position + 1 }

end Cursor

/-- A computation that moves a cursor. Where it ends, it ends with a value or an error and a cursor,
and it answers `none` where it does not end. -/
abbrev Reading (α : Type) := ExceptT ParseError (StateT Cursor Option) α

namespace Reading

/-- Where the calls that are left do not suffice, there is no answer. -/
def exhausted {α : Type} : Reading α :=
  ExceptT.mk fun _ => none

/-! ## Single steps -/

/-- The token in front of the cursor. -/
def peek : Reading (Option Token) := do
  return (← get).token?

/-- Moves the cursor over a token, if one is left. -/
def advance : Reading Unit := do
  if (← peek).isSome then modify Cursor.next

/-- Whether the given token is in front of the cursor. -/
def stands (kind : TokenKind) (lexeme : String) : Reading Bool := do
  return (← peek).any (·.is kind lexeme)

/-- Takes the token in front of the cursor and answers its lexeme, if it passes the test. -/
def eatIf? (p : Token → Bool) : Reading (Option String) := do
  match (← peek).filter p with
  | none => return none
  | some t =>
    advance
    return some t.lexeme

/-- Takes the given token, where it is in front of the cursor. -/
def eat? (kind : TokenKind) (lexeme : String) : Reading (Option String) :=
  eatIf? (·.is kind lexeme)

/-- Takes a separator: a token of any class whose lexeme is a comma. -/
def eatSeparator? : Reading (Option String) :=
  eatIf? (·.lexeme = ",")

/-- Takes one of the given operators. -/
def eatOperator? (operators : List String) : Reading (Option String) :=
  eatIf? fun t => t.kind = .operator && operators.contains t.lexeme

/-- Stops where a required token is not in front of the cursor. -/
def mismatch {α : Type} (expected : Expected) : Reading α := do
  throw (.mismatch expected (← peek))

/-- Stops where no statement or operand begins. -/
def unexpected {α : Type} : Reading α := do
  throw (.unexpected (← peek))

/-- Takes the given token. -/
def expect (kind : TokenKind) (lexeme : String) : Reading Unit := do
  match ← eat? kind lexeme with
  | some _ => return ()
  | none => mismatch ⟨kind, some lexeme⟩

/-- Takes an identifier and answers its name. -/
def expectIdentifier : Reading String := do
  match ← eatIf? (·.kind = .identifier) with
  | some name => return name
  | none => mismatch ⟨.identifier, none⟩

/-! ## Expressions -/

mutual

/-- A number, a name, a call, or an expression in parentheses. -/
def primary : Nat → Reading Node
  | 0 => exhausted
  | depth + 1 => do
    match ← peek with
    | none => unexpected
    | some t =>
      if t.kind = .literal then
        advance
        return .number t.lexeme
      else if t.kind = .identifier then
        advance
        match ← eat? .paren "(" with
        | some _ =>
          let args ← arguments depth
          return .functionCall t.lexeme args
        | none => return .identifier t.lexeme
      else if t.is .paren "(" then
        advance
        let tree ← chain depth .sum
        expect .paren ")"
        return tree
      else unexpected

/-- An operand of a tier: a chain of the tighter tier, or a primary. -/
def operand : Nat → Tier → Reading Node
  | 0, _ => exhausted
  | depth + 1, .sum => chain depth .product
  | depth + 1, .product => primary depth

/-- A chain of operands of one tier. -/
def chain : Nat → Tier → Reading Node
  | 0, _ => exhausted
  | depth + 1, tier => do
    let left ← operand depth tier
    chainLoop depth tier left

/-- Folds operators and operands to the left onto `left`, as long as an operator of the tier is in
front of the cursor. -/
def chainLoop : Nat → Tier → Node → Reading Node
  | 0, _, _ => exhausted
  | depth + 1, tier, left => do
    match ← eatOperator? tier.operators with
    | none => return left
    | some operator =>
      let right ← operand depth tier
      chainLoop depth tier (.binaryOp left operator right)

/-- The arguments of a call after its opening parenthesis, up to and including the closing one. -/
def arguments : Nat → Reading (List Node)
  | 0 => exhausted
  | depth + 1 => do
    let token ← peek
    let closed ← stands .paren ")"
    if token.isSome && !closed then
      let first ← chain depth .sum
      let args ← argumentLoop depth [first]
      expect .paren ")"
      return args
    else
      expect .paren ")"
      return []

/-- Appends arguments to those read, as long as a separator is in front of the cursor. -/
def argumentLoop : Nat → List Node → Reading (List Node)
  | 0, _ => exhausted
  | depth + 1, args => do
    match ← eatSeparator? with
    | none => return args
    | some _ =>
      let argument ← chain depth .sum
      argumentLoop depth (args ++ [argument])

end

/-- An expression is a chain of sums. -/
def expression (depth : Nat) : Reading Node :=
  chain depth .sum

/-! ## Statements -/

/-- A call, a compound assignment or an assignment, which all begin with a name. -/
def assignmentOrCall (depth : Nat) : Reading Node := do
  let name ← expectIdentifier
  match ← eat? .paren "(" with
  | some _ =>
    let args ← arguments depth
    return .functionCall name args
  | none =>
    match ← eat? .operator "+=" with
    | some _ =>
      let value ← expression depth
      return .compoundAssignment name "+=" value
    | none =>
      expect .operator "="
      let value ← expression depth
      return .assignment name value

/-- A print statement, which is a call with one argument. -/
def printStatement (depth : Nat) : Reading Node := do
  expect .keyword "print"
  expect .paren "("
  let argument ← expression depth
  expect .paren ")"
  return .functionCall "print" [argument]

/-- Appends parameters to those read, as long as a separator is in front of the cursor. -/
def parameterLoop : Nat → List String → Reading (List String)
  | 0, _ => exhausted
  | depth + 1, params => do
    match ← eatSeparator? with
    | none => return params
    | some _ =>
      let name ← expectIdentifier
      parameterLoop depth (params ++ [name])

/-- The parameters of a function: none, unless an identifier is in front of the cursor. -/
def parameters (depth : Nat) : Reading (List String) := do
  if (← peek).any (·.kind = .identifier) then
    let first ← expectIdentifier
    parameterLoop depth [first]
  else return []

mutual

/-- A conditional. -/
def ifStatement : Nat → Reading Node
  | 0 => exhausted
  | depth + 1 => do
    expect .keyword "if"
    let condition ← expression depth
    let body ← block depth
    return .ifStatement condition body

/-- A function declaration. -/
def functionDecl : Nat → Reading Node
  | 0 => exhausted
  | depth + 1 => do
    expect .keyword "fn"
    let name ← expectIdentifier
    expect .paren "("
    let params ← parameters depth
    expect .paren ")"
    let body ← block depth
    return .functionDecl name params body

/-- Statements between braces. -/
def block : Nat → Reading (List Node)
  | 0 => exhausted
  | depth + 1 => do
    expect .brace "\x7b"
    let body ← blockLoop depth []
    expect .brace "\x7d"
    return body

/-- Appends statements to those read, up to a closing brace or the end of the input. -/
def blockLoop : Nat → List Node → Reading (List Node)
  | 0, _ => exhausted
  | depth + 1, body => do
    let token ← peek
    let closed ← stands .brace "\x7d"
    if token.isSome && !closed then
      let next ← statement depth
      blockLoop depth (body ++ [next])
    else return body

/-- Any statement, told apart by its first token. -/
def statement : Nat → Reading Node
  | 0 => exhausted
  | depth + 1 => do
    match ← peek with
    | none => unexpected
    | some t =>
      if t.is .keyword "fn" then functionDecl depth
      else if t.is .keyword "if" then ifStatement depth
      else if t.is .keyword "print" then printStatement depth
      else if t.kind = .identifier then assignmentOrCall depth
      else unexpected

end

/-! ## Programs -/

/-- Appends statements to those read, up to the end of the input. -/
def programLoop : Nat → List Node → Reading (List Node)
  | 0, _ => exhausted
  | depth + 1, statements => do
    if (← peek).isSome then
      let next ← statement depth
      programLoop depth (statements ++ [next])
    else return statements

/-- The program that a token list spells, or the first error in it, read from the first token on. -/
def parse (depth : Nat) (ts : List Token) : Option (Except ParseError Program) := do
  let (result, _) ← programLoop depth [] ⟨ts, 0⟩
  some (result.map Program.mk)

end Reading

end Pocl.Grammar
