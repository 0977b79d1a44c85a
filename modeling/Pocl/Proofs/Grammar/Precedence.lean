import Pocl.Proofs.Grammar.Context

/-!
# Chains of operators

A chain of operators and operands, however long and however the two tiers alternate, has one tree.
The operators of sums cut it into pieces, each piece is folded from the left with its operators of
products, and the pieces are folded from the left with the operators of sums. The operands count
as a whole: what stands between the parentheses of a call or of a group is no part of the chain.

## Main definitions

* `cutAtSums first links`: the pieces of a chain
* `chainTree first links`: the tree of a chain
* `Link`: an operator with the tokens and the tree of the operand after it
* `IsOperand x o ts v`: the tokens are one operand, which is read as the tree `v`

## Main results

* `spelled_chainTree`: a chain of operands spells its tree
* `parse_chain_eq_chainTree`: a chain that is assigned is read as its tree
-/

namespace Pocl

open Grammar

/-! ## Trees of chains -/

/-- A part of a chain without operators of sums: its first operand, and the other ones with the
operators before them. -/
structure Piece where
  first : Node
  links : List (String × Node)

/-- The operands of a piece, folded from the left. -/
def Piece.tree (piece : Piece) : Node :=
  foldLinks piece.first piece.links

/-- The pieces between the operators of sums: the first one, and the other ones with the operators
before them. -/
def cutAtSums (first : Node) : List (String × Node) → Piece × List (String × Piece)
  | [] => (⟨first, []⟩, [])
  | (operator, right) :: links =>
    let (piece, pieces) := cutAtSums right links
    if operator ∈ ["+", "-"] then (⟨first, []⟩, (operator, piece) :: pieces)
    else (⟨first, (operator, piece.first) :: piece.links⟩, pieces)

/-- The tree of a chain: every piece is folded from the left, and then the pieces are. -/
def chainTree (first : Node) (links : List (String × Node)) : Node :=
  let (piece, pieces) := cutAtSums first links
  foldLinks piece.tree (pieces.map fun (operator, piece) => (operator, piece.tree))

section Pieces

variable {operator : String} {first right : Node} {links : List (String × Node)}

theorem cutAtSums_of_mem (h : operator ∈ Tier.sum.operators) :
    cutAtSums first ((operator, right) :: links) =
      (⟨first, []⟩, (operator, (cutAtSums right links).1) :: (cutAtSums right links).2) :=
  if_pos h

theorem cutAtSums_of_notMem (h : operator ∉ Tier.sum.operators) :
    cutAtSums first ((operator, right) :: links) =
      (⟨first, (operator, (cutAtSums right links).1.first) :: (cutAtSums right links).1.links⟩,
        (cutAtSums right links).2) :=
  if_neg h

/-- The first piece begins with the first operand. -/
theorem first_cutAtSums (first : Node) (links : List (String × Node)) :
    (cutAtSums first links).1.first = first := by
  cases links with
  | nil => rfl
  | cons link links =>
    obtain ⟨operator, right⟩ := link
    by_cases h : operator ∈ Tier.sum.operators
    · rw [cutAtSums_of_mem h]
    · rw [cutAtSums_of_notMem h]

/-- An operand and the links of its piece spell the piece. -/
theorem spelled_firstPiece {ts us : List Token} (hfirst : (Phrase.primary first).Spelled ts)
    (hlinks : (Phrase.links .product (cutAtSums first links).1.links).Spelled us) :
    (Phrase.operand .sum (cutAtSums first links).1.tree).Spelled (ts ++ us) := by
  rw [Piece.tree, first_cutAtSums]
  exact .term (.chain (.factor hfirst) hlinks)

end Pieces

/-! ## Tokens of chains -/

/-- An operator of a chain, with the tokens and the tree of the operand after it. -/
structure Link where
  operator : Token
  operand : List Token
  tree : Node

namespace Link

/-- The tokens of an operator and its operand. -/
def tokens (link : Link) : List Token :=
  link.operator :: link.operand

/-- The lexeme of an operator with the tree of its operand. -/
def pair (link : Link) : String × Node :=
  (link.operator.lexeme, link.tree)

/-- One of the four operators, and an operand that spells its tree. -/
structure Spelled (link : Link) : Prop where
  kind : link.operator.kind = .operator
  lexeme : link.operator.lexeme ∈ Tier.sum.operators ++ Tier.product.operators
  operand : (Phrase.primary link.tree).Spelled link.operand

end Link

variable {chain : List Link}

/-- Up to the first operator of sums a chain goes on with its first piece, and the other pieces
follow. -/
theorem exists_split_spelled_cutAtSums (h : ∀ link ∈ chain, link.Spelled) (first : Node) :
    ∃ ts us, chain.flatMap Link.tokens = ts ++ us ∧
      (Phrase.links .product (cutAtSums first (chain.map Link.pair)).1.links).Spelled ts ∧
      (Phrase.links .sum ((cutAtSums first (chain.map Link.pair)).2.map
        fun (operator, piece) => (operator, piece.tree))).Spelled us := by
  induction chain generalizing first with
  | nil => exact ⟨[], [], rfl, .noLinks, .noLinks⟩
  | cons link chain ih =>
    obtain ⟨hlink, hchain⟩ := List.forall_mem_cons.mp h
    obtain ⟨ts, us, htokens, hproduct, hsum⟩ := ih hchain link.tree
    rw [List.flatMap_cons, htokens, List.map_cons, Link.pair]
    by_cases hoperator : link.operator.lexeme ∈ Tier.sum.operators
    · -- The operand begins the next piece.
      rw [cutAtSums_of_mem hoperator]
      refine ⟨[], link.operator :: ((link.operand ++ ts) ++ us), by simp [Link.tokens], .noLinks,
        ?_⟩
      exact .link hlink.kind hoperator (spelled_firstPiece hlink.operand hproduct) hsum
    · -- The operand belongs to the piece before the operator.
      have hmem := (List.mem_append.mp hlink.lexeme).resolve_left hoperator
      rw [cutAtSums_of_notMem hoperator, first_cutAtSums]
      refine ⟨link.operator :: (link.operand ++ ts), us, by simp [Link.tokens], ?_, hsum⟩
      exact .link hlink.kind hmem (.factor hlink.operand) hproduct

/-- A chain of operands spells its tree. -/
theorem spelled_chainTree {first : Node} {ts : List Token}
    (hfirst : (Phrase.primary first).Spelled ts) (h : ∀ link ∈ chain, link.Spelled) :
    (Phrase.chain .sum (chainTree first (chain.map Link.pair))).Spelled
      (ts ++ chain.flatMap Link.tokens) := by
  obtain ⟨us, vs, htokens, hproduct, hsum⟩ := exists_split_spelled_cutAtSums h first
  rw [htokens, ← List.append_assoc]
  exact .chain (spelled_firstPiece hfirst hproduct) hsum

/-! ## Assignments -/

/-- The tokens are a number, a name, a call or an expression in parentheses, and assigned alone they
are read as the tree `v`. -/
structure IsOperand (x o : Token) (ts : List Token) (v : Node) : Prop where
  primary : ∃ tree, (Phrase.primary tree).Spelled ts
  parse : parse ([x, o] ++ ts) = .ok ⟨[.assignment x.lexeme v]⟩

theorem IsOperand.spelled {x o : Token} {ts : List Token} {v : Node} (h : IsOperand x o ts v)
    (hx : x.kind = .identifier) (ho : o.form = (.operator, "=")) :
    (Phrase.primary v).Spelled ts := by
  obtain ⟨tree, htree⟩ := h.primary
  have htree' := (Context.assignment x o hx ho).parse_fill_iff.mpr htree.toExpression
  have heq : [Node.assignment x.lexeme tree] = [.assignment x.lexeme v] :=
    Program.mk.inj (Except.ok.inj (htree'.symm.trans h.parse))
  obtain ⟨-, rfl⟩ := Node.assignment.inj (List.singleton_inj.mp heq)
  exact htree

/-- **A chain that is assigned is read as its tree**, whatever its length and whichever operators it
has. Its operands are numbers, names, calls and expressions in parentheses, each with the tree that
it has alone. -/
theorem parse_chain_eq_chainTree (x o : Token) (operand : List Token) (v : Node)
    (chain : List Link) (hx : x.kind = .identifier) (ho : o.form = (.operator, "="))
    (hoperand : IsOperand x o operand v)
    (hchain : ∀ link ∈ chain, link.operator.kind = .operator ∧
      link.operator.lexeme ∈ ["+", "-", "*", "/"] ∧ IsOperand x o link.operand link.tree) :
    parse ([x, o] ++ (operand ++ chain.flatMap fun link => link.operator :: link.operand)) =
      .ok ⟨[.assignment x.lexeme
        (chainTree v (chain.map fun link => (link.operator.lexeme, link.tree)))]⟩ := by
  have hspelled : ∀ link ∈ chain, link.Spelled := by
    intro link hmem
    obtain ⟨hkind, hlexeme, hlink⟩ := hchain link hmem
    exact ⟨hkind, hlexeme, hlink.spelled hx ho⟩
  exact (Context.assignment x o hx ho).parse_fill_iff.mpr
    (spelled_chainTree (hoperand.spelled hx ho) hspelled)

/-- `x = 1 - a * f(2) / (3 + 4) - b` takes a quotient from `1`, and then `b`. -/
theorem parse_chain_of_both_tiers :
    let x : Token := ⟨.identifier, "x", 1⟩
    let o : Token := ⟨.operator, "=", 3⟩
    let call : Node := .functionCall "f" [.number "2"]
    let sum : Node := .binaryOp (.number "3") "+" (.number "4")
    let quotient : Node := .binaryOp (.binaryOp (.identifier "a") "*" call) "/" sum
    parse [x, o, ⟨.literal, "1", 5⟩, ⟨.operator, "-", 7⟩, ⟨.identifier, "a", 9⟩,
        ⟨.operator, "*", 11⟩, ⟨.identifier, "f", 13⟩, ⟨.paren, "(", 14⟩, ⟨.literal, "2", 15⟩,
        ⟨.paren, ")", 16⟩, ⟨.operator, "/", 18⟩, ⟨.paren, "(", 20⟩, ⟨.literal, "3", 21⟩,
        ⟨.operator, "+", 23⟩, ⟨.literal, "4", 25⟩, ⟨.paren, ")", 26⟩, ⟨.operator, "-", 28⟩,
        ⟨.identifier, "b", 30⟩] =
      .ok ⟨[.assignment "x"
        (.binaryOp (.binaryOp (.number "1") "-" quotient) "-" (.identifier "b"))]⟩ := by
  intro x o call sum quotient
  let d : Context := .assignment x o rfl rfl
  have hone : IsOperand x o [⟨.literal, "1", 5⟩] (.number "1") := ⟨⟨_, .number rfl⟩, by cbv⟩
  have ha : IsOperand x o [⟨.identifier, "a", 9⟩] (.identifier "a") := ⟨⟨_, .name rfl⟩, by cbv⟩
  have hcall : IsOperand x o
      [⟨.identifier, "f", 13⟩, ⟨.paren, "(", 14⟩, ⟨.literal, "2", 15⟩, ⟨.paren, ")", 16⟩] call :=
    ⟨⟨call, (d.parse_fill_iff.mp (by cbv)).toPrimary (by simp [call])⟩, by cbv⟩
  have hsum : IsOperand x o ([⟨.paren, "(", 20⟩] ++
      ([⟨.literal, "3", 21⟩, ⟨.operator, "+", 23⟩, ⟨.literal, "4", 25⟩] ++ [⟨.paren, ")", 26⟩]))
      sum :=
    ⟨⟨sum, .group rfl (d.parse_fill_iff.mp (by cbv)) rfl⟩, by cbv⟩
  have hb : IsOperand x o [⟨.identifier, "b", 30⟩] (.identifier "b") := ⟨⟨_, .name rfl⟩, by cbv⟩
  exact parse_chain_eq_chainTree x o _ _ [⟨⟨.operator, "-", 7⟩, _, _⟩, ⟨⟨.operator, "*", 11⟩, _, _⟩,
      ⟨⟨.operator, "/", 18⟩, _, _⟩, ⟨⟨.operator, "-", 28⟩, _, _⟩] rfl rfl hone
    (List.forall_mem_cons.mpr ⟨⟨rfl, by decide, ha⟩,
      List.forall_mem_cons.mpr ⟨⟨rfl, by decide, hcall⟩,
        List.forall_mem_cons.mpr ⟨⟨rfl, by decide, hsum⟩,
          List.forall_mem_singleton.mpr ⟨rfl, by decide, hb⟩⟩⟩⟩)

end Pocl
