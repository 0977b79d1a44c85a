import Pocl.Json
import Pocl.Proofs.Json.Reader

/-!
# Tokens and trees from JSON documents

A document of a token list or of a program is decoded by the names in it: the class of a token by
its name, and the constructor of a node by the member that comes first. Decoding undoes encoding,
and reading undoes printing, so the JSON text of a token list or of a program tells all of it.

## Main definitions

* `TokenKind.ofJsonName?`: the class with a name
* `Token.ofJson?`, `tokensOfJson?`: the token, the token list that a document stands for
* `Node.ofJson?`, `Program.ofJson?`: the node, the program that a document stands for

## Main results

* `Node.ofJson?_toJson`, `Program.ofJson?_toJson`: a tree is decoded from its document
* `tokensOfJson?_tokensToJson`: a token list is decoded from its document
* `json_text_lossless`: the JSON text of a program or a token list is well formed, and what it was
  printed for is read back from it
-/

namespace Pocl

/-! ## Tokens -/

/-- The class with the given name in documents. -/
def TokenKind.ofJsonName? (name : String) : Option TokenKind :=
  [keyword, literal, identifier, operator, paren, brace, error, unknown].find? (·.jsonName = name)

/-- The token that a document stands for. -/
def Token.ofJson? : Json → Option Token
  | .object [("kind", .string name), ("lexeme", .string lexeme), ("position", .number position)] =>
    do some ⟨← TokenKind.ofJsonName? name, lexeme, position⟩
  | _ => none

/-- The token list that a document stands for. -/
def tokensOfJson? : Json → Option (List Token)
  | .array items => items.mapM Token.ofJson?
  | _ => none

theorem TokenKind.ofJsonName?_jsonName (kind : TokenKind) :
    ofJsonName? kind.jsonName = some kind := by
  cases kind <;> decide

theorem Token.ofJson?_toJson (t : Token) : Token.ofJson? t.toJson = some t := by
  simp [toJson, ofJson?, TokenKind.ofJsonName?_jsonName]

theorem tokensOfJson?_tokensToJson (ts : List Token) :
    tokensOfJson? (tokensToJson ts) = some ts := by
  simp only [tokensOfJson?, tokensToJson]
  induction ts with
  | nil => rfl
  | cons t ts ih => simp [List.mapM_cons, Token.ofJson?_toJson, ih]

/-! ## Trees -/

/-- The name that a document stands for, where a bare name is due. -/
def nameOfJson? : Json → Option String
  | .object [("name", .string name)] => some name
  | _ => none

/-- The texts that documents stand for, where strings are due. -/
def stringsOfJson? : List Json → Option (List String)
  | [] => some []
  | .string value :: items => do some (value :: (← stringsOfJson? items))
  | _ => none

mutual

/-- The node that a document stands for. -/
def Node.ofJson? : Json → Option Node
  | .object [("type", .string "BinaryOp"), ("left", left), ("operator", .string operator),
      ("right", right)] => do
    some (.binaryOp (← Node.ofJson? left) operator (← Node.ofJson? right))
  | .object [("type", .string "UnaryOp"), ("operator", .string operator), ("operand", operand)] =>
    do some (.unaryOp operator (← Node.ofJson? operand))
  | .object [("type", .string "Number"), ("value", .string value)] => some (.number value)
  | .object [("type", .string "Identifier"), ("name", .string name)] => some (.identifier name)
  | .object [("type", .string "Assignment"), ("target", target), ("value", value)] => do
    some (.assignment (← nameOfJson? target) (← Node.ofJson? value))
  | .object [("type", .string "CompoundAssignment"), ("target", target),
      ("operator", .string operator), ("value", value)] => do
    some (.compoundAssignment (← nameOfJson? target) operator (← Node.ofJson? value))
  | .object [("type", .string "FunctionCall"), ("callee", callee),
      ("arguments", .array arguments)] => do
    some (.functionCall (← nameOfJson? callee) (← nodesOfJson? arguments))
  | .object [("type", .string "FunctionDecl"), ("name", .string name),
      ("parameters", .array parameters), ("body", .array body)] => do
    some (.functionDecl name (← stringsOfJson? parameters) (← nodesOfJson? body))
  | .object [("type", .string "IfStatement"), ("condition", condition),
      ("body", .array body)] => do
    some (.ifStatement (← Node.ofJson? condition) (← nodesOfJson? body))
  | _ => none

/-- The nodes that documents stand for, in order. -/
def nodesOfJson? : List Json → Option (List Node)
  | [] => some []
  | node :: nodes => do some ((← Node.ofJson? node) :: (← nodesOfJson? nodes))

end

/-- The program that a document stands for. -/
def Program.ofJson? : Json → Option Program
  | .object [("statements", .array statements)] => do some ⟨← nodesOfJson? statements⟩
  | _ => none

theorem nameOfJson?_nameToJson (name : String) : nameOfJson? (nameToJson name) = some name := by
  simp [nameToJson, nameOfJson?]

theorem stringsOfJson?_map_string (names : List String) :
    stringsOfJson? (names.map .string) = some names := by
  induction names with
  | nil => rfl
  | cons name names ih => simp [stringsOfJson?, ih]

mutual

/-- A node is decoded from its document. -/
theorem Node.ofJson?_toJson : (node : Node) → Node.ofJson? node.toJson = some node
  | .binaryOp left operator right => by
    simp [Node.toJson, Node.ofJson?, Node.ofJson?_toJson left, Node.ofJson?_toJson right]
  | .unaryOp operator operand => by simp [Node.toJson, Node.ofJson?, Node.ofJson?_toJson operand]
  | .number value => by simp [Node.toJson, Node.ofJson?]
  | .identifier name => by simp [Node.toJson, Node.ofJson?]
  | .assignment target value => by
    simp [Node.toJson, Node.ofJson?, nameOfJson?_nameToJson, Node.ofJson?_toJson value]
  | .compoundAssignment target operator value => by
    simp [Node.toJson, Node.ofJson?, nameOfJson?_nameToJson, Node.ofJson?_toJson value]
  | .functionCall callee arguments => by
    simp [Node.toJson, Node.ofJson?, nameOfJson?_nameToJson, nodesOfJson?_nodesToJson arguments]
  | .functionDecl name parameters body => by
    simp [Node.toJson, Node.ofJson?, stringsOfJson?_map_string, nodesOfJson?_nodesToJson body]
  | .ifStatement condition body => by
    simp [Node.toJson, Node.ofJson?, Node.ofJson?_toJson condition, nodesOfJson?_nodesToJson body]

/-- Nodes are decoded from their documents. -/
theorem nodesOfJson?_nodesToJson : (nodes : List Node) →
    nodesOfJson? (nodesToJson nodes) = some nodes
  | [] => rfl
  | node :: nodes => by
    simp [nodesToJson, nodesOfJson?, Node.ofJson?_toJson node, nodesOfJson?_nodesToJson nodes]

end

theorem length_nodesToJson (nodes : List Node) : (nodesToJson nodes).length = nodes.length := by
  induction nodes with
  | nil => rfl
  | cons node nodes ih => rw [nodesToJson, List.length_cons, List.length_cons, ih]

/-- A program is decoded from its document. -/
theorem Program.ofJson?_toJson (p : Program) : Program.ofJson? p.toJson = some p := by
  simp [toJson, ofJson?, nodesOfJson?_nodesToJson]

/-! ## Texts -/

namespace Json

theorem read?_text (document : Json) : read? document.text = some document :=
  read?_eq_some_iff.mpr (textOf_text document)

/-- A line feed after the text makes no difference. -/
theorem read?_text_lineFeed (document : Json) :
    read? (document.text ++ "\n") = some document := by
  have hsplit : (document.text ++ "\n").toList = [] ++ ((document.pretty 0).toList ++ ['\n']) := by
    rw [String.toList_append, text]
    rfl
  exact read?_eq_some_iff.mpr
    ⟨[], _, ['\n'], blank_nil, spelled_pretty 0 document, by decide, hsplit⟩

/-- The text of a document stands for that document only. -/
theorem textOf_text_iff {d document : Json} : TextOf d document.text ↔ d = document := by
  rw [← read?_eq_some_iff, read?_text, Option.some_inj, eq_comm]

section Codec

variable {α : Type} {encode : α → Json} {decode : Json → Option α}

/-- What decoding recovers from a document is recovered from its text. -/
theorem bind_read?_text (h : ∀ x, decode (encode x) = some x) (x : α) :
    (read? (encode x).text).bind decode = some x := by
  rw [read?_text, Option.bind_some, h]

theorem text_eq_text_iff (h : ∀ x, decode (encode x) = some x) {x y : α} :
    (encode x).text = (encode y).text ↔ x = y := by
  constructor
  · intro htext
    have hread := bind_read?_text h x
    rw [htext, bind_read?_text h y] at hread
    exact (Option.some.inj hread).symm
  · rintro rfl
    rfl

end Codec

end Json

/-- The JSON text of a program or of a token list is well formed, it stands for one document only,
and the program or the token list is read back from it. Two programs share a text only if they are
the same, and so do two token lists. -/
theorem json_text_lossless :
    (∀ p : Program, (∀ d, Json.TextOf d p.toJson.text ↔ d = p.toJson) ∧
      (Json.read? p.toJson.text).bind Program.ofJson? = some p) ∧
    (∀ ts : List Token, (∀ d, Json.TextOf d (tokensToJson ts).text ↔ d = tokensToJson ts) ∧
      (Json.read? (tokensToJson ts).text).bind tokensOfJson? = some ts) ∧
    (∀ p q : Program, p.toJson.text = q.toJson.text ↔ p = q) ∧
    ∀ ts us : List Token, (tokensToJson ts).text = (tokensToJson us).text ↔ ts = us := by
  refine ⟨fun p => ⟨fun d => Json.textOf_text_iff, ?_⟩,
    fun ts => ⟨fun d => Json.textOf_text_iff, ?_⟩, fun p q => ?_, fun ts us => ?_⟩
  · exact Json.bind_read?_text Program.ofJson?_toJson p
  · exact Json.bind_read?_text tokensOfJson?_tokensToJson ts
  · exact Json.text_eq_text_iff Program.ofJson?_toJson
  · exact Json.text_eq_text_iff tokensOfJson?_tokensToJson

end Pocl
