import Pocl.Proofs.Grammar.Image
import Pocl.Proofs.Text
import Pocl.Proofs.Tree.Heading
import Pocl.Tree

/-!
# Outlines tell the whole tree

An outline shows a tree by indentation, and its texts as they are. So a tree can be read back from
it where no text holds a line feed and no parameter name is empty or holds a comma. The trees of
source texts are of this kind.

## Main definitions

* `Node.heading`, `headingsOf`: a tree, several trees, as headings with headings below them
* `Node.Listable`, `AllListable`, `Program.Listable`: the trees that an outline tells apart

## Main results

* `Node.outline_eq`, `outlineAll_eq`: outlines are the lines of headings
* `Node.heading_inj`, `headingsOf_inj`: listable trees are determined by their headings
* `WellFormed.listable`: the programs of source texts are listable
* `outlineText_determines_program`: listable programs are determined by their outlines
-/

namespace Pocl

variable {depth : Nat} {text name : String} {c : Char} {node : Node} {nodes : List Node}
  {p q : Program}

/-! ## Trees as headings -/

mutual

/-- A node as a heading, with its labels as the headings below it. -/
def Node.heading : Node → Heading
  | .binaryOp left operator right =>
    .of ("BinaryOp '" ++ operator ++ "'")
      [.of "Left:" [left.heading], .of "Right:" [right.heading]]
  | .unaryOp operator operand =>
    .of ("UnaryOp '" ++ operator ++ "'") [.of "Operand:" [operand.heading]]
  | .number value => .of ("Number: " ++ value) []
  | .identifier name => .of ("Identifier: " ++ name) []
  | .assignment target value =>
    .of "Assignment"
      [.of "Target:" [.of ("Identifier: " ++ target) []], .of "Value:" [value.heading]]
  | .compoundAssignment target operator value =>
    .of ("CompoundAssignment '" ++ operator ++ "'")
      [.of "Target:" [.of ("Identifier: " ++ target) []], .of "Value:" [value.heading]]
  | .functionCall callee arguments =>
    .of "FunctionCall"
      [.of "Name:" [.of ("Identifier: " ++ callee) []], .of "Arguments:" (headingsOf arguments)]
  | .functionDecl name parameters body =>
    .of ("FunctionDecl '" ++ name ++ "'")
      [.of ("Parameters: " ++ ", ".intercalate parameters) [], .of "Body:" (headingsOf body)]
  | .ifStatement condition body =>
    .of "IfStatement" [.of "Condition:" [condition.heading], .of "Body:" (headingsOf body)]

/-- Several nodes as headings, in order. -/
def headingsOf : List Node → List Heading
  | [] => []
  | node :: nodes => node.heading :: headingsOf nodes

end

@[simp] theorem outlineLine_eq : outlineLine depth text = indented (4 * depth) text := rfl

@[simp] theorem outlineLabel_eq : outlineLabel depth text = indented (4 * depth + 2) text := by
  have hspaces : "  " = String.ofList (List.replicate 2 ' ') := rfl
  rw [outlineLabel, outlineLine, indented, ← List.replicate_append_replicate, String.ofList_append,
    String.append_assoc, hspaces]

@[simp] theorem outlineName_eq :
    outlineName depth text = indented (4 * depth) ("Identifier: " ++ text) := rfl

mutual

/-- The outline of a node is that of its heading: labels stand two columns further in than it, and
what they label six columns further in than they. -/
theorem Node.outline_eq (depth : Nat) : (node : Node) →
    node.outline depth = node.heading.lines (4 * depth) 2 6
  | .binaryOp left operator right => by
    simp [Node.outline, Node.heading, Nat.mul_add, Node.outline_eq (depth + 2) left,
      Node.outline_eq (depth + 2) right]
  | .unaryOp operator operand => by
    simp [Node.outline, Node.heading, Nat.mul_add, Node.outline_eq (depth + 2) operand]
  | .number value => by simp [Node.outline, Node.heading]
  | .identifier name => by simp [Node.outline, Node.heading]
  | .assignment target value => by
    simp [Node.outline, Node.heading, Nat.mul_add, Node.outline_eq (depth + 2) value]
  | .compoundAssignment target operator value => by
    simp [Node.outline, Node.heading, Nat.mul_add, Node.outline_eq (depth + 2) value]
  | .functionCall callee arguments => by
    simp [Node.outline, Node.heading, Nat.mul_add, outlineAll_eq (depth + 2) arguments]
  | .functionDecl name parameters body => by
    simp [Node.outline, Node.heading, Nat.mul_add, outlineAll_eq (depth + 2) body]
  | .ifStatement condition body => by
    simp [Node.outline, Node.heading, Nat.mul_add, Node.outline_eq (depth + 2) condition,
      outlineAll_eq (depth + 2) body]

/-- The outline of several nodes is that of their headings. -/
theorem outlineAll_eq (depth : Nat) : (nodes : List Node) →
    outlineAll depth nodes = headingLines (4 * depth) 2 6 (headingsOf nodes)
  | [] => rfl
  | node :: nodes => by
    rw [outlineAll, headingsOf, headingLines, Node.outline_eq depth node, outlineAll_eq depth nodes]

end

theorem Program.outline_eq (p : Program) :
    p.outline = "Program" :: headingLines 4 2 6 (headingsOf p.statements) := by
  rw [outline, outlineAll_eq]

theorem length_headingsOf (nodes : List Node) : (headingsOf nodes).length = nodes.length := by
  induction nodes with
  | nil => rfl
  | cons node nodes ih => rw [headingsOf, List.length_cons, List.length_cons, ih]

/-! ## Trees from headings -/

mutual

/-- No text in the tree holds a line feed, and each parameter name can be told from its neighbours
in a list. -/
def Node.Listable : Node → Prop
  | .binaryOp left operator right => left.Listable ∧ OneLine operator ∧ right.Listable
  | .unaryOp operator operand => OneLine operator ∧ operand.Listable
  | .number value => OneLine value
  | .identifier name => OneLine name
  | .assignment target value => OneLine target ∧ value.Listable
  | .compoundAssignment target operator value =>
    OneLine target ∧ OneLine operator ∧ value.Listable
  | .functionCall callee arguments => OneLine callee ∧ AllListable arguments
  | .functionDecl name parameters body =>
    OneLine name ∧ (∀ parameter ∈ parameters, OneLine parameter ∧ IsListable parameter) ∧
      AllListable body
  | .ifStatement condition body => condition.Listable ∧ AllListable body

/-- Every tree of the list is listable. -/
def AllListable : List Node → Prop
  | [] => True
  | node :: nodes => node.Listable ∧ AllListable nodes

end

/-- Every statement of the program is listable. -/
def Program.Listable (p : Program) : Prop :=
  AllListable p.statements

theorem allListable_iff_forall_mem : AllListable nodes ↔ ∀ node ∈ nodes, node.Listable := by
  induction nodes with
  | nil => simp [AllListable]
  | cons node nodes ih => rw [AllListable, ih, List.forall_mem_cons]

/-- The word that the first line of an outline begins with. -/
def Node.word : Node → String
  | .binaryOp .. => "BinaryOp"
  | .unaryOp .. => "UnaryOp"
  | .number .. => "Number"
  | .identifier .. => "Identifier"
  | .assignment .. => "Assignment"
  | .compoundAssignment .. => "CompoundAssignment"
  | .functionCall .. => "FunctionCall"
  | .functionDecl .. => "FunctionDecl"
  | .ifStatement .. => "IfStatement"

/-- The first word of a heading. -/
def Heading.word : Heading → String
  | .mk caption _ => String.ofList (caption.text.toList.takeWhile Char.isAlpha)

theorem word_heading (node : Node) : node.heading.word = node.word := by
  cases node <;> simp [Node.heading, Heading.of, Heading.word, Node.word]

theorem word_eq_of_heading_eq {m n : Node} (h : m.heading = n.heading) : m.word = n.word := by
  rw [← word_heading, h, word_heading]

mutual

/-- A listable tree is determined by its heading: the first word tells which node it is. -/
theorem Node.heading_inj : (m n : Node) → m.Listable → n.Listable → m.heading = n.heading → m = n
  | .binaryOp left operator right, n, hm, hn, h => by
    cases n with
    | binaryOp left' operator' right' =>
      obtain ⟨rfl, hleft, hright⟩ : operator = operator' ∧ left.heading = left'.heading ∧
          right.heading = right'.heading := by simpa [Node.heading] using h
      rw [Node.heading_inj left left' hm.1 hn.1 hleft,
        Node.heading_inj right right' hm.2.2 hn.2.2 hright]
    | _ => exact absurd (word_eq_of_heading_eq h) (by simp [Node.word])
  | .unaryOp operator operand, n, hm, hn, h => by
    cases n with
    | unaryOp operator' operand' =>
      obtain ⟨rfl, hoperand⟩ : operator = operator' ∧ operand.heading = operand'.heading := by
        simpa [Node.heading] using h
      rw [Node.heading_inj operand operand' hm.2 hn.2 hoperand]
    | _ => exact absurd (word_eq_of_heading_eq h) (by simp [Node.word])
  | .number value, n, hm, hn, h => by
    cases n with
    | number value' =>
      obtain rfl : value = value' := by simpa [Node.heading] using h
      rfl
    | _ => exact absurd (word_eq_of_heading_eq h) (by simp [Node.word])
  | .identifier name, n, hm, hn, h => by
    cases n with
    | identifier name' =>
      obtain rfl : name = name' := by simpa [Node.heading] using h
      rfl
    | _ => exact absurd (word_eq_of_heading_eq h) (by simp [Node.word])
  | .assignment target value, n, hm, hn, h => by
    cases n with
    | assignment target' value' =>
      obtain ⟨rfl, hvalue⟩ : target = target' ∧ value.heading = value'.heading := by
        simpa [Node.heading] using h
      rw [Node.heading_inj value value' hm.2 hn.2 hvalue]
    | _ => exact absurd (word_eq_of_heading_eq h) (by simp [Node.word])
  | .compoundAssignment target operator value, n, hm, hn, h => by
    cases n with
    | compoundAssignment target' operator' value' =>
      obtain ⟨rfl, rfl, hvalue⟩ : operator = operator' ∧ target = target' ∧
          value.heading = value'.heading := by simpa [Node.heading] using h
      rw [Node.heading_inj value value' hm.2.2 hn.2.2 hvalue]
    | _ => exact absurd (word_eq_of_heading_eq h) (by simp [Node.word])
  | .functionCall callee arguments, n, hm, hn, h => by
    cases n with
    | functionCall callee' arguments' =>
      obtain ⟨rfl, harguments⟩ : callee = callee' ∧
          headingsOf arguments = headingsOf arguments' := by simpa [Node.heading] using h
      rw [headingsOf_inj arguments arguments' hm.2 hn.2 harguments]
    | _ => exact absurd (word_eq_of_heading_eq h) (by simp [Node.word])
  | .functionDecl name parameters body, n, hm, hn, h => by
    cases n with
    | functionDecl name' parameters' body' =>
      obtain ⟨rfl, hparameters, hbody⟩ : name = name' ∧
          ", ".intercalate parameters = ", ".intercalate parameters' ∧
          headingsOf body = headingsOf body' := by simpa [Node.heading] using h
      obtain rfl := intercalate_comma_inj (fun p hp => (hm.2.1 p hp).2)
        (fun p hp => (hn.2.1 p hp).2) hparameters
      rw [headingsOf_inj body body' hm.2.2 hn.2.2 hbody]
    | _ => exact absurd (word_eq_of_heading_eq h) (by simp [Node.word])
  | .ifStatement condition body, n, hm, hn, h => by
    cases n with
    | ifStatement condition' body' =>
      obtain ⟨hcondition, hbody⟩ : condition.heading = condition'.heading ∧
          headingsOf body = headingsOf body' := by simpa [Node.heading] using h
      rw [Node.heading_inj condition condition' hm.1 hn.1 hcondition,
        headingsOf_inj body body' hm.2 hn.2 hbody]
    | _ => exact absurd (word_eq_of_heading_eq h) (by simp [Node.word])

/-- Listable trees are determined by their headings. -/
theorem headingsOf_inj : (ms ns : List Node) → AllListable ms → AllListable ns →
    headingsOf ms = headingsOf ns → ms = ns
  | [], [], _, _, _ => rfl
  | [], _ :: _, _, _, h => by cases h
  | _ :: _, [], _, _, h => by cases h
  | m :: ms, n :: ns, hms, hns, h => by
    obtain ⟨hhead, htail⟩ := List.cons.inj h
    rw [Node.heading_inj m n hms.1 hns.1 hhead, headingsOf_inj ms ns hms.2 hns.2 htail]

end

/-! ## Lines -/

@[simp] theorem oneLine_indented {column : Nat} :
    OneLine (indented column text) ↔ OneLine text := by
  simp [indented, OneLine]

mutual

/-- No line of an outline holds a line feed. -/
theorem Node.oneLines_outline (depth : Nat) : (node : Node) → node.Listable →
    OneLines (node.outline depth)
  | .binaryOp left operator right, ⟨hleft, hoperator, hright⟩ => by
    simp +decide [Node.outline, hoperator, Node.oneLines_outline (depth + 2) left hleft,
      Node.oneLines_outline (depth + 2) right hright]
  | .unaryOp operator operand, ⟨hoperator, hoperand⟩ => by
    simp +decide [Node.outline, hoperator, Node.oneLines_outline (depth + 2) operand hoperand]
  | .number value, (hvalue : OneLine value) => by
    simp +decide [Node.outline, hvalue]
  | .identifier name, (hname : OneLine name) => by
    simp +decide [Node.outline, hname]
  | .assignment target value, ⟨htarget, hvalue⟩ => by
    simp +decide [Node.outline, htarget, Node.oneLines_outline (depth + 2) value hvalue]
  | .compoundAssignment target operator value, ⟨htarget, hoperator, hvalue⟩ => by
    simp +decide [Node.outline, htarget, hoperator,
      Node.oneLines_outline (depth + 2) value hvalue]
  | .functionCall callee arguments, ⟨hcallee, harguments⟩ => by
    simp +decide [Node.outline, hcallee, oneLines_outlineAll (depth + 2) arguments harguments]
  | .functionDecl name parameters body, ⟨hname, hparameters, hbody⟩ => by
    have hlist := oneLine_intercalate_comma fun parameter hp => (hparameters parameter hp).1
    simp +decide [Node.outline, hname, hlist, oneLines_outlineAll (depth + 2) body hbody]
  | .ifStatement condition body, ⟨hcondition, hbody⟩ => by
    simp +decide [Node.outline, Node.oneLines_outline (depth + 2) condition hcondition,
      oneLines_outlineAll (depth + 2) body hbody]

/-- No line of several outlines holds a line feed. -/
theorem oneLines_outlineAll (depth : Nat) : (nodes : List Node) → AllListable nodes →
    OneLines (outlineAll depth nodes)
  | [], _ => oneLines_nil
  | node :: nodes, ⟨hnode, hnodes⟩ => by
    rw [outlineAll, oneLines_append]
    exact ⟨Node.oneLines_outline depth node hnode, oneLines_outlineAll depth nodes hnodes⟩

end

theorem Program.oneLines_outline (h : p.Listable) : OneLines p.outline :=
  oneLines_cons.mpr ⟨by decide, oneLines_outlineAll 1 p.statements h⟩

/-! ## Trees of source texts -/

/-- A name holds no character that is not part of a word. -/
theorem IsName.notMem (h : IsName name) (hc : isWordPart c = false) : c ∉ name.toList := by
  intro hmem
  rw [isWordPart_of_isWord h.1 c hmem] at hc
  cases hc

theorem IsName.oneLine (h : IsName name) : OneLine name :=
  h.notMem rfl

theorem IsName.isListable (h : IsName name) : IsListable name :=
  ⟨(shaped_of_isName h).1, h.notMem rfl⟩

theorem IsNumber.oneLine (h : IsNumber text) : OneLine text := by
  intro hmem
  have hdigit : Char.isDigit '\n' = true := h.2 _ hmem
  cases hdigit

theorem oneLine_of_mem_operators (h : text ∈ ["+", "-", "*", "/"]) : OneLine text := by
  revert text
  decide

theorem IsExpression.listable (h : IsExpression node) : node.Listable := by
  induction h with
  | number hvalue => exact hvalue.oneLine
  | identifier hname => exact hname.oneLine
  | functionCall hcallee _ ih => exact ⟨hcallee.oneLine, allListable_iff_forall_mem.mpr ih⟩
  | binaryOp _ hoperator _ hleft hright =>
    exact ⟨hleft, oneLine_of_mem_operators hoperator, hright⟩

theorem IsStatement.listable (h : IsStatement node) : node.Listable := by
  induction h with
  | assignment htarget hvalue => exact ⟨htarget.oneLine, hvalue.listable⟩
  | functionCall hcallee harguments =>
    exact ⟨hcallee.oneLine,
      allListable_iff_forall_mem.mpr fun argument ha => (harguments argument ha).listable⟩
  | print hargument => exact ⟨by decide, hargument.listable, trivial⟩
  | functionDecl hname hparameters _ ih =>
    have hlist := fun parameter hp =>
      And.intro (hparameters parameter hp).oneLine (hparameters parameter hp).isListable
    exact ⟨hname.oneLine, hlist, allListable_iff_forall_mem.mpr ih⟩
  | ifStatement hcondition _ ih =>
    exact ⟨hcondition.listable, allListable_iff_forall_mem.mpr ih⟩

/-- The programs of source texts are listable. -/
theorem WellFormed.listable (h : WellFormed p) : p.Listable :=
  allListable_iff_forall_mem.mpr fun node hnode => (h node hnode).listable

/-! ## Programs from outlines -/

/-- Listable programs are determined by the text of their outlines. -/
theorem Program.outlineText_inj (hp : p.Listable) (hq : q.Listable)
    (h : p.outlineText = q.outlineText) : p = q := by
  have hlines := join_lines_inj (oneLines_outline hp) (oneLines_outline hq) h
  rw [outline_eq, outline_eq] at hlines
  -- Nothing stands below the last statement, so the forests end together.
  have hheadings := (headingLines_append_inj (by decide) (by decide) _ _ standLeftOf_nil
    standLeftOf_nil (congrArg (· ++ []) (List.cons.inj hlines).2)).1
  exact congrArg Program.mk (headingsOf_inj _ _ hp hq hheadings)

/-- Two programs whose texts hold no line feed, and whose parameter names are not empty and hold no
comma, are the same if they have the same outline. In particular two source texts have the same
outline only if they have the same program. -/
theorem outlineText_determines_program :
    (∀ p q : Program, p.Listable → q.Listable → p.outlineText = q.outlineText → p = q) ∧
      ∀ source source' p q, parseSource source = .ok p → parseSource source' = .ok q →
        p.outlineText = q.outlineText → p = q := by
  refine ⟨fun p q => Program.outlineText_inj, fun source source' p q hp hq => ?_⟩
  exact Program.outlineText_inj (wellFormed_of_parseSource hp).listable
    (wellFormed_of_parseSource hq).listable

/-- An empty parameter name leaves no trace in an outline. -/
example : (Program.mk [.functionDecl "f" [""] []]).outlineText =
    (Program.mk [.functionDecl "f" [] []]).outlineText := rfl

/-- The outline tells where an inner call ends. It does not tell brackets from none, and neither
does the program. -/
theorem outlineText_of_nested_calls :
    let p : Program := ⟨[.functionCall "f" [.functionCall "g" [.identifier "a"], .identifier "b"]]⟩
    let q : Program := ⟨[.functionCall "f" [.functionCall "g" [.identifier "a", .identifier "b"]]]⟩
    p.Listable ∧ q.Listable ∧ p.outlineText ≠ q.outlineText ∧
      ∃ r r' : Program, parseSource "x = (1)" = .ok r ∧ parseSource "x=1" = .ok r' ∧
        r.outlineText = r'.outlineText ∧ r = r' := by
  intro p q
  have hp : p.Listable := by simp +decide [p, Program.Listable, AllListable, Node.Listable]
  have hq : q.Listable := by simp +decide [q, Program.Listable, AllListable, Node.Listable]
  have hne : p ≠ q := by simp [p, q]
  have hscan : scan "x = (1)" = [⟨.identifier, "x", 1⟩, ⟨.operator, "=", 3⟩, ⟨.paren, "(", 5⟩,
      ⟨.literal, "1", 6⟩, ⟨.paren, ")", 7⟩] := by decide +kernel
  have hscan' : scan "x=1" = [⟨.identifier, "x", 1⟩, ⟨.operator, "=", 2⟩,
      ⟨.literal, "1", 3⟩] := by decide +kernel
  have h : parseSource "x = (1)" = .ok ⟨[.assignment "x" (.number "1")]⟩ := by
    rw [parseSource, hscan]
    cbv
  have h' : parseSource "x=1" = .ok ⟨[.assignment "x" (.number "1")]⟩ := by
    rw [parseSource, hscan']
    cbv
  exact ⟨hp, hq, fun heq => hne (outlineText_determines_program.1 p q hp hq heq), _, _, h, h', rfl,
    outlineText_determines_program.2 _ _ _ _ h h' rfl⟩

end Pocl
