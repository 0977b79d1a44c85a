/-!
# Syntax trees

A program is a list of statements, and a node is a statement or an expression. Names, numbers and
operators are kept as they stand in the source. An outline shows a tree as indented lines. A level
is four spaces wide. A label stands two spaces in from its node, and what it labels stands two
levels in.

## Main definitions

* `Node`: statements and expressions
* `Program`: a list of statements
* `Node.outline depth`: the lines of a node at a depth
* `Program.outline`: the lines of a program
* `Program.outlineText`: those lines as a text
-/

namespace Pocl

/-- A statement or an expression. -/
inductive Node where
  | binaryOp (left : Node) (operator : String) (right : Node)
  /-- An operator with one operand, which no rule of the grammar builds. -/
  | unaryOp (operator : String) (operand : Node)
  | number (value : String)
  | identifier (name : String)
  | assignment (target : String) (value : Node)
  | compoundAssignment (target : String) (operator : String) (value : Node)
  | functionCall (callee : String) (arguments : List Node)
  | functionDecl (name : String) (parameters : List String) (body : List Node)
  | ifStatement (condition : Node) (body : List Node)
  deriving Repr

/-- A list of statements. -/
structure Program where
  statements : List Node
  deriving Repr

/-! ## Outlines -/

/-- A line at a depth. -/
def outlineLine (depth : Nat) (text : String) : String :=
  String.ofList (List.replicate (4 * depth) ' ') ++ text

/-- A label of a node at a depth. -/
def outlineLabel (depth : Nat) (text : String) : String :=
  outlineLine depth ("  " ++ text)

/-- The line of a name. -/
def outlineName (depth : Nat) (name : String) : String :=
  outlineLine depth ("Identifier: " ++ name)

mutual

/-- The lines of a node at a depth. -/
def Node.outline (depth : Nat) : Node → List String
  | .binaryOp left operator right =>
    outlineLine depth ("BinaryOp '" ++ operator ++ "'") ::
      outlineLabel depth "Left:" :: left.outline (depth + 2) ++
      outlineLabel depth "Right:" :: right.outline (depth + 2)
  | .unaryOp operator operand =>
    outlineLine depth ("UnaryOp '" ++ operator ++ "'") ::
      outlineLabel depth "Operand:" :: operand.outline (depth + 2)
  | .number value => [outlineLine depth ("Number: " ++ value)]
  | .identifier name => [outlineName depth name]
  | .assignment target value =>
    outlineLine depth "Assignment" ::
      outlineLabel depth "Target:" :: outlineName (depth + 2) target ::
      outlineLabel depth "Value:" :: value.outline (depth + 2)
  | .compoundAssignment target operator value =>
    outlineLine depth ("CompoundAssignment '" ++ operator ++ "'") ::
      outlineLabel depth "Target:" :: outlineName (depth + 2) target ::
      outlineLabel depth "Value:" :: value.outline (depth + 2)
  | .functionCall callee arguments =>
    outlineLine depth "FunctionCall" ::
      outlineLabel depth "Name:" :: outlineName (depth + 2) callee ::
      outlineLabel depth "Arguments:" :: outlineAll (depth + 2) arguments
  | .functionDecl name parameters body =>
    outlineLine depth ("FunctionDecl '" ++ name ++ "'") ::
      outlineLabel depth ("Parameters: " ++ ", ".intercalate parameters) ::
      outlineLabel depth "Body:" :: outlineAll (depth + 2) body
  | .ifStatement condition body =>
    outlineLine depth "IfStatement" ::
      outlineLabel depth "Condition:" :: condition.outline (depth + 2) ++
      outlineLabel depth "Body:" :: outlineAll (depth + 2) body

/-- The lines of several nodes at a depth, in order. -/
def outlineAll (depth : Nat) : List Node → List String
  | [] => []
  | node :: nodes => node.outline depth ++ outlineAll depth nodes

end

/-- The lines of a program, whose statements stand at depth one. -/
def Program.outline (program : Program) : List String :=
  "Program" :: outlineAll 1 program.statements

/-- The outline of a program as a text. -/
def Program.outlineText (program : Program) : String :=
  String.join (program.outline.map (· ++ "\n"))

end Pocl
