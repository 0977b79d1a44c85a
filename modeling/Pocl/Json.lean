import Pocl.Token
import Pocl.Tree

/-!
# JSON documents

A document is a string, a natural number, an array or an object with ordered members. Its text is
indented by two spaces a level, and an empty array or object takes no line of its own. A token is an
object with its class, lexeme and end offset. A node is an object whose first member names its
constructor and whose further members are the constructor's arguments.

## Main definitions

* `Json`: documents
* `Json.quote`: the text of a string, with its escapes
* `Json.text document`: the text of a document
* `Token.toJson`, `tokensToJson`: tokens as documents
* `Node.toJson`, `Program.toJson`: trees as documents
-/

namespace Pocl

/-- A JSON document, without the kinds that no output needs. -/
inductive Json where
  | string (value : String)
  | number (value : Nat)
  | array (items : List Json)
  | object (members : List (String × Json))
  deriving Repr

namespace Json

/-! ## Strings -/

/-- The text of a character inside a string. Quotes, backslashes and the characters below the space
are escaped, and all others stand for themselves. -/
def escape (c : Char) : List Char :=
  if c = '"' then ['\\', '"']
  else if c = '\\' then ['\\', '\\']
  else if c = '\x08' then ['\\', 'b']
  else if c = '\x0c' then ['\\', 'f']
  else if c = '\n' then ['\\', 'n']
  else if c = '\r' then ['\\', 'r']
  else if c = '\t' then ['\\', 't']
  else if c.toNat < 0x20 then
    ['\\', 'u', '0', '0', Nat.digitChar (c.toNat / 16), Nat.digitChar (c.toNat % 16)]
  else [c]

/-- The text of a string. -/
def quote (s : String) : String :=
  "\"" ++ String.ofList (s.toList.flatMap escape) ++ "\""

/-! ## Documents -/

/-- A line break and the indentation of a depth. -/
def lineBreak (depth : Nat) : String :=
  "\n" ++ String.ofList (List.replicate (2 * depth) ' ')

mutual

/-- The text of a document whose first line stands at a depth. -/
def pretty (depth : Nat) : Json → String
  | string value => quote value
  | number value => toString value
  | array [] => "[]"
  | array (item :: items) =>
    "[" ++ lineBreak (depth + 1) ++ item.pretty (depth + 1) ++ prettyItems (depth + 1) items ++
      lineBreak depth ++ "]"
  | object [] => "\x7b\x7d"
  | object ((key, value) :: members) =>
    "\x7b" ++ lineBreak (depth + 1) ++ quote key ++ ": " ++ value.pretty (depth + 1) ++
      prettyMembers (depth + 1) members ++ lineBreak depth ++ "\x7d"

/-- The further items of an array, each after a comma. -/
def prettyItems (depth : Nat) : List Json → String
  | [] => ""
  | item :: items => "," ++ lineBreak depth ++ item.pretty depth ++ prettyItems depth items

/-- The further members of an object, each after a comma. -/
def prettyMembers (depth : Nat) : List (String × Json) → String
  | [] => ""
  | (key, value) :: members =>
    "," ++ lineBreak depth ++ quote key ++ ": " ++ value.pretty depth ++
      prettyMembers depth members

end

/-- The text of a whole document, without a final line break. -/
def text (document : Json) : String :=
  document.pretty 0

end Json

/-! ## Tokens as documents -/

/-- The name of a class in documents. -/
def TokenKind.jsonName : TokenKind → String
  | .keyword => "Keyword"
  | .literal => "Literal"
  | .identifier => "Identifier"
  | .operator => "Operator"
  | .paren => "Paren"
  | .brace => "Brace"
  | .error => "Error"
  | .unknown => "Unknown"

/-- A token as a document. -/
def Token.toJson (t : Token) : Json :=
  .object [("kind", .string t.kind.jsonName), ("lexeme", .string t.lexeme),
    ("position", .number t.position)]

/-- A token list as a document. -/
def tokensToJson (ts : List Token) : Json :=
  .array (ts.map Token.toJson)

/-! ## Trees as documents -/

/-- A bare name as a document. -/
def nameToJson (name : String) : Json :=
  .object [("name", .string name)]

mutual

/-- A node as a document. -/
def Node.toJson : Node → Json
  | .binaryOp left operator right =>
    .object [("type", .string "BinaryOp"), ("left", left.toJson),
      ("operator", .string operator), ("right", right.toJson)]
  | .unaryOp operator operand =>
    .object [("type", .string "UnaryOp"), ("operator", .string operator),
      ("operand", operand.toJson)]
  | .number value => .object [("type", .string "Number"), ("value", .string value)]
  | .identifier name => .object [("type", .string "Identifier"), ("name", .string name)]
  | .assignment target value =>
    .object [("type", .string "Assignment"), ("target", nameToJson target),
      ("value", value.toJson)]
  | .compoundAssignment target operator value =>
    .object [("type", .string "CompoundAssignment"), ("target", nameToJson target),
      ("operator", .string operator), ("value", value.toJson)]
  | .functionCall callee arguments =>
    .object [("type", .string "FunctionCall"), ("callee", nameToJson callee),
      ("arguments", .array (nodesToJson arguments))]
  | .functionDecl name parameters body =>
    .object [("type", .string "FunctionDecl"), ("name", .string name),
      ("parameters", .array (parameters.map .string)), ("body", .array (nodesToJson body))]
  | .ifStatement condition body =>
    .object [("type", .string "IfStatement"), ("condition", condition.toJson),
      ("body", .array (nodesToJson body))]

/-- Several nodes as documents, in order. -/
def nodesToJson : List Node → List Json
  | [] => []
  | node :: nodes => node.toJson :: nodesToJson nodes

end

/-- A program as a document. -/
def Program.toJson (program : Program) : Json :=
  .object [("statements", .array (nodesToJson program.statements))]

end Pocl
