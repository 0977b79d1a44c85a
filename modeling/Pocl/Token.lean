import Pocl.Character

/-!
# Tokens

A token is a classified piece of a source text. It records where it ends, in bytes from the
beginning of the source; where it begins follows from its length. A source text is cut into tokens
from the left: blanks are dropped, and every other character begins a token, so that scanning cannot
fail. Each token is as long as its class allows. A listing has one line for each token.

## Main definitions

* `TokenKind`: the eight classes of tokens, with their display names
* `Token`: a kind, a lexeme and an end offset
* `Token.start`: the offset of the first byte
* `Token.render`: the display form `<KIND: 'lexeme' @ end>`
* `listing ts`: the listing of a token list
* `isKeyword`: membership in the reserved words
* `cut c cs`: the lexeme that begins with the character `c`
* `scanFrom offset cs`: the tokens of the characters `cs`, which stand at `offset` in the source
* `scan source`: the tokens of a source text

## Main results

* `Token.is_iff`: matching a token compares its kind and its lexeme, and not its position
* `text_append_rest_cut`: cutting loses no character
* `length_rest_cut_le`: every cut takes its first character
-/

namespace Pocl

/-- The class of a lexeme. -/
inductive TokenKind where
  | keyword
  | literal
  | identifier
  | operator
  | paren
  | brace
  /-- A full stop that is not part of `..`. -/
  | error
  /-- A character that no other class accepts. -/
  | unknown
  deriving DecidableEq, Repr

/-- The display name of a class. -/
def TokenKind.name : TokenKind → String
  | .keyword => "KEYWORD"
  | .literal => "LITERAL"
  | .identifier => "IDENTIFIER"
  | .operator => "OPERATOR"
  | .paren => "PAREN"
  | .brace => "BRACE"
  | .error => "ERROR"
  | .unknown => "UNKNOWN"

/-- The reserved words. `for`, `from` and `to` begin no statement yet. -/
def keywords : List String :=
  ["print", "fn", "if", "for", "from", "to"]

/-- Whether a word is reserved. -/
def isKeyword (word : String) : Bool :=
  keywords.contains word

/-- A classified lexeme with the offset, in bytes, just past its last character. -/
structure Token where
  kind : TokenKind
  lexeme : String
  position : Nat
  deriving DecidableEq, Repr

namespace Token

/-- The offset of the first byte, or zero for a lexeme longer than its end offset. -/
def start (t : Token) : Nat :=
  t.position - t.lexeme.utf8ByteSize

/-- Whether a token has the given kind and lexeme. -/
def is (t : Token) (kind : TokenKind) (lexeme : String) : Bool :=
  t.kind = kind && t.lexeme = lexeme

theorem is_iff {t : Token} {kind : TokenKind} {lexeme : String} :
    t.is kind lexeme = true ↔ t.kind = kind ∧ t.lexeme = lexeme := by
  simp [is]

/-- The display form, in which the lexeme stands unescaped. -/
def render (t : Token) : String :=
  "<" ++ t.kind.name ++ ": '" ++ t.lexeme ++ "' @ " ++ toString t.position ++ ">"

end Token

/-- One line for each token, in order. -/
def listing (ts : List Token) : String :=
  String.join (ts.map fun t => t.render ++ "\n")

/-! ## One lexeme -/

/-- One lexeme, cut from the front of a text. -/
structure Cut where
  kind : TokenKind
  text : List Char
  rest : List Char

/-- The class of a character that is a token by itself. -/
def symbolKind (c : Char) : TokenKind :=
  if c ∈ ['=', '+', '-', '*', '/'] then .operator
  else if c ∈ ['(', ')'] then .paren
  else if c ∈ ['\x7b', '\x7d'] then .brace
  else .unknown

/-- The class of a word. -/
def wordKind (word : List Char) : TokenKind :=
  if isKeyword (String.ofList word) then .keyword else .identifier

/-- The lexeme that begins with `c`, where `cs` follows: a run of digits, a word, `..`, or one
character. -/
def cut (c : Char) (cs : List Char) : Cut :=
  if c.isDigit then
    ⟨.literal, c :: cs.takeWhile Char.isDigit, cs.dropWhile Char.isDigit⟩
  else if isLetter c then
    ⟨wordKind (c :: cs.takeWhile isWordPart), c :: cs.takeWhile isWordPart,
      cs.dropWhile isWordPart⟩
  else if c = '.' then
    match cs with
    | '.' :: rest => ⟨.operator, ['.', '.'], rest⟩
    | _ => ⟨.error, ['.'], cs⟩
  else ⟨symbolKind c, [c], cs⟩

theorem text_append_rest_cut (c : Char) (cs : List Char) :
    (cut c cs).text ++ (cut c cs).rest = c :: cs := by
  fun_cases cut c cs <;> simp_all

theorem length_rest_cut_le (c : Char) (cs : List Char) :
    (cut c cs).rest.length ≤ cs.length := by
  fun_cases cut c cs
  · exact (List.dropWhile_sublist _).length_le
  · exact (List.dropWhile_sublist _).length_le
  · simp
  · exact Nat.le_refl _
  · exact Nat.le_refl _

/-! ## All lexemes -/

/-- The tokens of the characters `cs`, the first of which stands at `offset` in the source. -/
def scanFrom (offset : Nat) : List Char → List Token
  | [] => []
  | c :: cs =>
    if isBlank c then scanFrom (offset + c.utf8Size) cs
    else
      let lexeme := String.ofList (cut c cs).text
      let stop := offset + lexeme.utf8ByteSize
      ⟨(cut c cs).kind, lexeme, stop⟩ :: scanFrom stop (cut c cs).rest
termination_by cs => cs.length
decreasing_by
  · exact Nat.lt_succ_self _
  · exact Nat.lt_succ_of_le (length_rest_cut_le c cs)

/-- The tokens of a source text. -/
def scan (source : String) : List Token :=
  scanFrom 0 source.toList

end Pocl
