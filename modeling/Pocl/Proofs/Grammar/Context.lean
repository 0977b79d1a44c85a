import Pocl.Proofs.Grammar.Sequence

/-!
# Expressions in context

An expression stands in assignments, in the arguments of calls and in conditions, and what ends it
is another token in each place: nothing, a parenthesis or a brace. It means the same everywhere. A
token list that fills the gap of one statement fills the gap of every other one, with the same tree,
and parentheses around it change nothing. Calls are read at the head of a statement and inside an
expression by rules of their own, which agree on the arguments.

## Main definitions

* `Context`: a statement with a gap for an expression
* `Context.fill`, `Context.statement`: the tokens and the tree of the statement with the gap filled

## Main results

* `Phrase.Spelled.toPrimary`: an expression that is no operation is a primary
* `Context.parse_fill_iff`: a gap is filled by the tokens that spell an expression
* `expressions_read_alike`: an expression reads alike in every context
-/

namespace Pocl

open Grammar

variable {ts us : List Token} {f l r x o c k : Token} {tree value : Node} {args : List Node}

namespace Grammar

/-! ## Statements by their tokens -/

theorem spelled_assignment_iff (hx : x.kind = .identifier) (ho : o.form = (.operator, "=")) :
    (Clause.statement (.assignment x.lexeme value)).Spelled (x :: o :: us) ↔
      (Phrase.chain .sum value).Spelled us := by
  refine ⟨fun h => ?_, .assignment hx ho⟩
  generalize x.lexeme = name at h
  generalize hts : x :: o :: us = ts at h
  cases h with
  | assignment _ _ hvalue =>
    obtain ⟨rfl, htail⟩ := List.cons.inj hts
    obtain ⟨rfl, rfl⟩ := List.cons.inj htail
    exact hvalue

theorem spelled_compoundAssignment_iff (hx : x.kind = .identifier)
    (ho : o.form = (.operator, "+=")) :
    (Clause.statement (.compoundAssignment x.lexeme "+=" value)).Spelled (x :: o :: us) ↔
      (Phrase.chain .sum value).Spelled us := by
  refine ⟨fun h => ?_, .compoundAssignment hx ho⟩
  generalize x.lexeme = name at h
  generalize hts : x :: o :: us = ts at h
  cases h with
  | compoundAssignment _ _ hvalue =>
    obtain ⟨rfl, htail⟩ := List.cons.inj hts
    obtain ⟨rfl, rfl⟩ := List.cons.inj htail
    exact hvalue

/-- What stands between an opening of two tokens and one closing token. -/
theorem bracket_inj {a b c a' b' c' : Token} {us' : List Token}
    (h : a :: b :: (us ++ [c]) = a' :: b' :: (us' ++ [c'])) : a = a' ∧ us = us' := by
  obtain ⟨ha, h⟩ := List.cons.inj h
  exact ⟨ha, List.append_inj_left' (List.cons.inj h).2 rfl⟩

theorem spelled_print_iff (hk : k.form = (.keyword, "print")) (hl : l.form = (.paren, "("))
    (hr : r.form = (.paren, ")")) :
    (Clause.statement (.functionCall "print" [value])).Spelled (k :: l :: (us ++ [r])) ↔
      (Phrase.chain .sum value).Spelled us := by
  refine ⟨fun h => ?_, fun h => .print hk hl h hr⟩
  generalize "print" = name at h
  generalize hts : k :: l :: (us ++ [r]) = ts at h
  cases h with
  | print _ _ hargument _ =>
    obtain ⟨rfl, rfl⟩ := bracket_inj hts
    exact hargument
  | call hf =>
    obtain ⟨rfl, -⟩ := List.cons.inj hts
    cases hf.symm.trans (kind_of_form hk)

theorem spelled_call_iff {name : String} (hf : f.form = (.identifier, name))
    (hl : l.form = (.paren, "(")) (hr : r.form = (.paren, ")")) :
    (Clause.statement (.functionCall name args)).Spelled (f :: l :: (us ++ [r])) ↔
      (Phrase.arguments args).Spelled us := by
  constructor
  · intro h
    generalize hts : f :: l :: (us ++ [r]) = ts at h
    cases h with
    | print hk =>
      obtain ⟨rfl, -⟩ := List.cons.inj hts
      cases hf.symm.trans hk
    | call _ _ harguments _ =>
      obtain ⟨rfl, rfl⟩ := bracket_inj hts
      exact harguments
  · intro h
    obtain ⟨hkind, rfl⟩ := Prod.mk.inj hf
    exact .call hkind hl h hr

theorem spelled_condition_iff (hk : k.form = (.keyword, "if")) (ho : o.form = (.brace, "\x7b"))
    (hc : c.form = (.brace, "\x7d")) :
    (Clause.statement (.ifStatement value [])).Spelled (k :: (us ++ [o, c])) ↔
      (Phrase.chain .sum value).Spelled us := by
  refine ⟨fun h => ?_, fun h => .ifStatement hk h (.block ho .noStatements hc)⟩
  generalize hts : k :: (us ++ [o, c]) = ts at h
  cases h with
  | ifStatement _ hcondition hblock =>
    cases hblock with
    | block _ hbody _ =>
      cases hbody
      obtain rfl := List.append_inj_left' (List.cons.inj hts).2 rfl
      exact hcondition

/-! ## Calls -/

theorem spelled_singleArgument_iff :
    (Phrase.arguments [value]).Spelled us ↔ (Phrase.chain .sum value).Spelled us := by
  constructor
  · intro h
    cases h with
    | someArguments hvalue hothers =>
      cases hothers
      rwa [List.append_nil]
  · intro h
    simpa using Phrase.Spelled.someArguments h .noMoreArguments

theorem foldLinks_cases (first : Node) (pairs : List (String × Node)) :
    pairs = [] ∨ ∃ left operator right, foldLinks first pairs = .binaryOp left operator right := by
  induction pairs generalizing first with
  | nil => exact .inl rfl
  | cons pair pairs ih =>
    refine .inr ?_
    rcases ih (.binaryOp first pair.1 pair.2) with rfl | h
    · exact ⟨first, pair.1, pair.2, rfl⟩
    · exact h

section Primary

variable (htree : ∀ left operator right, tree ≠ .binaryOp left operator right)
include htree

/-- A chain that is no operation has no links. -/
theorem Phrase.Spelled.toSoleOperand {tier : Tier} (h : (Phrase.chain tier tree).Spelled ts) :
    (Phrase.operand tier tree).Spelled ts := by
  cases h with
  | @chain _ us vs first pairs hfirst hlinks =>
    rcases foldLinks_cases first pairs with rfl | ⟨left, operator, right, h⟩
    · cases hlinks
      rwa [List.append_nil]
    · exact absurd h (htree left operator right)

/-- An expression that is no operation is a primary. -/
theorem Phrase.Spelled.toPrimary (h : (Phrase.chain .sum tree).Spelled ts) :
    (Phrase.primary tree).Spelled ts := by
  cases h.toSoleOperand htree with
  | term hterm =>
    cases hterm.toSoleOperand htree with
    | factor hprimary => exact hprimary

end Primary

/-- A call inside an expression has the arguments that it has as a statement. -/
theorem spelled_calledValue_iff {name : String} (hf : f.form = (.identifier, name))
    (hl : l.form = (.paren, "(")) (hr : r.form = (.paren, ")")) :
    (Phrase.chain .sum (.functionCall name args)).Spelled (f :: l :: (us ++ [r])) ↔
      (Phrase.arguments args).Spelled us := by
  constructor
  · intro h
    have hprimary := h.toPrimary (by simp)
    generalize hts : f :: l :: (us ++ [r]) = ts at hprimary
    cases hprimary with
    | call _ _ harguments _ =>
      obtain ⟨rfl, rfl⟩ := bracket_inj hts
      exact harguments
    | group hparen =>
      obtain ⟨rfl, -⟩ := List.cons.inj hts
      cases hf.symm.trans hparen
  · intro h
    obtain ⟨hkind, rfl⟩ := Prod.mk.inj hf
    exact (Phrase.Spelled.call hkind hl h hr).toExpression

end Grammar

/-! ## Contexts -/

/-- A statement with a gap for an expression. -/
inductive Context where
  /-- `x = _` -/
  | assignment (x o : Token) (hx : x.kind = .identifier) (ho : o.form = (.operator, "="))
  /-- `x += _` -/
  | compoundAssignment (x o : Token) (hx : x.kind = .identifier)
      (ho : o.form = (.operator, "+="))
  /-- `print(_)` -/
  | print (k l r : Token) (hk : k.form = (.keyword, "print")) (hl : l.form = (.paren, "("))
      (hr : r.form = (.paren, ")"))
  /-- `f(_)` -/
  | call (f l r : Token) (hf : f.kind = .identifier) (hl : l.form = (.paren, "("))
      (hr : r.form = (.paren, ")"))
  /-- An `if` with the condition `_` and nothing in its block. -/
  | condition (k o c : Token) (hk : k.form = (.keyword, "if")) (ho : o.form = (.brace, "\x7b"))
      (hc : c.form = (.brace, "\x7d"))

namespace Context

/-- The tokens of the statement with the tokens `us` in its gap. -/
def fill (us : List Token) : Context → List Token
  | assignment x o _ _ | compoundAssignment x o _ _ => [x, o] ++ us
  | print k l r _ _ _ | call k l r _ _ _ => [k, l] ++ us ++ [r]
  | condition k o c _ _ _ => [k] ++ us ++ [o, c]

/-- The statement with the expression `value` in its gap. -/
def statement (value : Node) : Context → Node
  | assignment x _ _ _ => .assignment x.lexeme value
  | compoundAssignment x _ _ _ => .compoundAssignment x.lexeme "+=" value
  | print _ _ _ _ _ _ => .functionCall "print" [value]
  | call f _ _ _ _ _ => .functionCall f.lexeme [value]
  | condition _ _ _ _ _ _ => .ifStatement value []

/-- A gap is filled by the tokens that spell an expression, and by no others. -/
theorem parse_fill_iff (d : Context) :
    parse (d.fill us) = .ok ⟨[d.statement value]⟩ ↔ (Phrase.chain .sum value).Spelled us := by
  rw [parse_eq_single_iff]
  cases d with
  | assignment x o hx ho => exact spelled_assignment_iff hx ho
  | compoundAssignment x o hx ho => exact spelled_compoundAssignment_iff hx ho
  | print k l r hk hl hr => exact spelled_print_iff hk hl hr
  | call f l r hf hl hr =>
    exact (spelled_call_iff (Prod.ext hf rfl) hl hr).trans spelled_singleArgument_iff
  | condition k o c hk ho hc => exact spelled_condition_iff hk ho hc

end Context

/-- **Expressions read alike in every context.** The tokens that fill one gap with a tree fill every
gap with it, also in parentheses. A call has the same arguments as a statement and in a gap. -/
theorem expressions_read_alike :
    (∀ (d d' : Context) us value, parse (d.fill us) = .ok ⟨[d.statement value]⟩ ↔
        parse (d'.fill us) = .ok ⟨[d'.statement value]⟩) ∧
      (∀ (d d' : Context) us value (l r : Token), l.form = (.paren, "(") →
        r.form = (.paren, ")") → parse (d.fill us) = .ok ⟨[d.statement value]⟩ →
          parse (d'.fill ([l] ++ us ++ [r])) = .ok ⟨[d'.statement value]⟩) ∧
      ∀ (d : Context) us args name (fs fs' : List Token) (r r' : Token),
        fs.map Token.form = [(.identifier, name), (.paren, "(")] → r.form = (.paren, ")") →
          fs'.map Token.form = [(.identifier, name), (.paren, "(")] → r'.form = (.paren, ")") →
            (parse (fs ++ us ++ [r]) = .ok ⟨[.functionCall name args]⟩ ↔
              parse (d.fill (fs' ++ us ++ [r'])) =
                .ok ⟨[d.statement (.functionCall name args)]⟩) := by
  refine ⟨?_, ?_, ?_⟩
  · intro d d' us value
    rw [d.parse_fill_iff, d'.parse_fill_iff]
  · intro d d' us value l r hl hr h
    have hspelled := d.parse_fill_iff.mp h
    exact d'.parse_fill_iff.mpr (Phrase.Spelled.group hl hspelled hr).toExpression
  · intro d us args name fs fs' r r' hfs hr hfs' hr'
    simp only [List.map_eq_cons_iff, List.map_eq_nil_iff] at hfs hfs'
    obtain ⟨f, -, rfl, hf, l, -, rfl, hl, rfl⟩ := hfs
    obtain ⟨f', -, rfl, hf', l', -, rfl, hl', rfl⟩ := hfs'
    rw [parse_eq_single_iff, d.parse_fill_iff]
    exact (spelled_call_iff hf hl hr).trans (spelled_calledValue_iff hf' hl' hr').symm

/-- The sum of `print(1 + 2)` reads alike in `x = 1 + 2` and in `x = (1 + 2)`, and `f(1, 2)` has the
arguments that it has in `x = f(1, 2)`. -/
theorem sum_reads_alike :
    let l : Token := ⟨.paren, "(", 6⟩
    let r : Token := ⟨.paren, ")", 12⟩
    let d : Context := .print ⟨.keyword, "print", 5⟩ l r rfl rfl rfl
    let d' : Context := .assignment ⟨.identifier, "x", 1⟩ ⟨.operator, "=", 3⟩ rfl rfl
    let sum : List Token := [⟨.literal, "1", 7⟩, ⟨.operator, "+", 9⟩, ⟨.literal, "2", 11⟩]
    let value : Node := .binaryOp (.number "1") "+" (.number "2")
    let call : List Token := [⟨.identifier, "f", 5⟩, l]
    let pair : List Token := [⟨.literal, "1", 7⟩, ⟨.unknown, ",", 9⟩, ⟨.literal, "2", 11⟩]
    let args : List Node := [.number "1", .number "2"]
    parse (d.fill sum) = .ok ⟨[d.statement value]⟩ ∧
      parse (d'.fill sum) = .ok ⟨[d'.statement value]⟩ ∧
      parse (d'.fill ([l] ++ sum ++ [r])) = .ok ⟨[d'.statement value]⟩ ∧
      parse (call ++ pair ++ [r]) = .ok ⟨[.functionCall "f" args]⟩ ∧
      parse (d'.fill (call ++ pair ++ [r])) = .ok ⟨[d'.statement (.functionCall "f" args)]⟩ := by
  intro l r d d' sum value call pair args
  have hsum : parse (d.fill sum) = .ok ⟨[d.statement value]⟩ := by cbv
  have hcall : parse (call ++ pair ++ [r]) = .ok ⟨[.functionCall "f" args]⟩ := by cbv
  obtain ⟨hfill, hgroup, hargs⟩ := expressions_read_alike
  exact ⟨hsum, (hfill d d' sum value).mp hsum, hgroup d d' sum value l r rfl rfl hsum, hcall,
    (hargs d' pair args "f" call call r r rfl rfl rfl rfl).mp hcall⟩

end Pocl
