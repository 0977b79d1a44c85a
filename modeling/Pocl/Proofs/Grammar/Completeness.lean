import Pocl.Proofs.Grammar.Derivation

/-!
# Every derivation is read

On tokens that spell a phrase, the rule for the phrase answers what the phrase stands for and
stops right after it, as long as the next token cannot go on with the phrase. The loops of the
rules are greedy; they lose no derivation, because no token both goes on with an expression and
follows one.

## Main definitions

* `Ends operators form`: a form that neither opens a call nor is one of the operators
* `Phrase.Read`, `Clause.Read`: what the rule for a phrase, for a clause, answers

## Main results

* `Phrase.Spelled.read`, `Clause.Spelled.read`: derivations are read
* `parse_of_derives`: a token list that spells a program is read as it
-/

namespace Pocl.Grammar

open Rule

variable {t : Token} {ts us rest : List Token}

/-! ## Single tokens -/

namespace Rule

theorem expect_cons {kind : TokenKind} {lexeme : String} (h : t.form = (kind, lexeme)) :
    erase (expect kind lexeme) (t :: us) = .ok () us := by
  rw [erase_expect, bind_of_ok (take?_pos (decide_eq_true h))]
  rfl

theorem expectIdentifier_cons (h : t.kind = .identifier) :
    erase expectIdentifier (t :: us) = .ok t.lexeme us := by
  rw [erase_expectIdentifier, bind_of_ok (take?_pos (decide_eq_true h))]
  rfl

theorem take?_of_next {p : TokenKind × String → Bool}
    (h : ∀ form, next ts = some form → p form = false) : take? p ts = .ok none ts := by
  cases ts with
  | nil => rfl
  | cons t us => exact take?_neg (h t.form rfl)

end Rule

/-! ## Expressions -/

/-- The operators that bind tighter than those of the tier. -/
def Tier.inner : Tier → List String
  | sum => product.operators
  | product => []

/-- The next form neither opens a call nor is one of the operators. -/
def Ends (operators : List String) (form : Option (TokenKind × String)) : Prop :=
  ∀ kind lexeme, form = some (kind, lexeme) →
    ¬ (kind = .paren ∧ lexeme = "(") ∧ ¬ (kind = .operator ∧ lexeme ∈ operators)

theorem Ends.mono {operators more : List String} {form : Option (TokenKind × String)}
    (h : Ends more form) (hsub : operators ⊆ more) : Ends operators form := fun kind lexeme hf =>
  ⟨(h kind lexeme hf).1, fun ho => (h kind lexeme hf).2 ⟨ho.1, hsub ho.2⟩⟩

theorem ends_of_closing {operators : List String} (h : t.form = (.paren, ")")) :
    Ends operators (next (t :: us)) := by
  rintro kind lexeme hf
  obtain ⟨rfl, rfl⟩ := Prod.mk.inj (h.symm.trans (Option.some.inj hf))
  exact ⟨by simp, fun ho => absurd ho.1 (by simp)⟩

theorem ends_of_separator {tier : Tier} (h : t.lexeme = ",") :
    Ends (tier.operators ++ tier.inner) (next (t :: us)) := by
  rintro kind lexeme hf
  obtain ⟨rfl, rfl⟩ := Prod.mk.inj (Option.some.inj hf)
  rw [h]
  cases tier <;> exact ⟨fun ho => absurd ho.2 (by decide), fun ho => absurd ho.2 (by decide)⟩

theorem ends_of_operator {tier : Tier} (h : t.kind = .operator) (hmem : t.lexeme ∈ tier.operators) :
    Ends tier.inner (next (t :: us)) := by
  rintro kind lexeme hf
  obtain ⟨rfl, rfl⟩ := Prod.mk.inj (Option.some.inj hf)
  refine ⟨fun ho => absurd (h.symm.trans ho.1) (by decide), fun ho => ?_⟩
  cases tier with
  | product => exact absurd ho.2 (List.not_mem_nil)
  | sum =>
    -- No operator belongs to both tiers.
    have disjoint : ∀ op ∈ Tier.sum.operators, op ∉ Tier.sum.inner := by decide
    exact disjoint _ hmem ho.2

theorem Phrase.Spelled.ends_links {tier : Tier} {pairs : List (String × Node)}
    (h : (Phrase.links tier pairs).Spelled ts)
    (hrest : Ends (tier.operators ++ tier.inner) (next rest)) :
    Ends tier.inner (next (ts ++ rest)) := by
  cases h with
  | noLinks => exact hrest.mono (List.subset_append_right _ _)
  | link ho hmem _ _ => exact ends_of_operator ho hmem

theorem Phrase.Spelled.ends_moreArguments {tier : Tier} {args : List Node}
    (h : (Phrase.moreArguments args).Spelled ts) (ht : t.form = (.paren, ")")) :
    Ends (tier.operators ++ tier.inner) (next (ts ++ t :: rest)) := by
  cases h with
  | noMoreArguments => exact ends_of_closing ht
  | moreArguments hs _ _ => exact ends_of_separator hs

/-- What the rule for a phrase answers on the tokens `ts`. -/
def Phrase.Read : Phrase → List Token → Prop
  | .primary tree, ts => ∀ rest, Ends [] (next rest) →
    erase Grammar.primary (ts ++ rest) = .ok tree rest
  | .operand tier tree, ts => ∀ rest, Ends tier.inner (next rest) →
    erase (Grammar.operand tier) (ts ++ rest) = .ok tree rest
  | .links tier pairs, ts => ∀ left rest, Ends (tier.operators ++ tier.inner) (next rest) →
    erase (chainFrom tier left) (ts ++ rest) = .ok (foldLinks left pairs) rest
  | .chain tier tree, ts => ∀ rest, Ends (tier.operators ++ tier.inner) (next rest) →
    erase (Grammar.chain tier) (ts ++ rest) = .ok tree rest
  | .arguments args, ts => ∀ r rest, r.form = (.paren, ")") →
    erase Grammar.arguments (ts ++ r :: rest) = .ok args rest
  | .moreArguments args, ts => ∀ r rest, r.form = (.paren, ")") →
    erase Grammar.moreArguments (ts ++ r :: rest) = .ok args (r :: rest)

/-- **Every spelled phrase is read.** -/
theorem Phrase.Spelled.read {phrase : Phrase} (h : phrase.Spelled ts) : phrase.Read ts := by
  induction h with
  | @number t ht =>
    intro rest _
    rw [erase_primary]
    exact bind_of_ok (take?_pos (decide_eq_true ht))
  | @name t ht =>
    intro rest hrest
    have hlit : ¬ t.form.1 = .literal := fun hl => by cases ht.symm.trans hl
    have hcall : take? (· = (.paren, "(")) rest = .ok none rest :=
      take?_of_next fun form hf => decide_eq_false fun ho => (hrest _ _ (ho ▸ hf)).1 ⟨rfl, rfl⟩
    rw [erase_primary]
    refine (bind_of_ok (take?_neg (decide_eq_false hlit))).trans ?_
    refine (bind_of_ok (take?_pos (decide_eq_true ht))).trans ?_
    exact bind_of_ok hcall
  | @call f l r ts args hf hl _ hr ih =>
    intro rest _
    have hlit : ¬ f.form.1 = .literal := fun hl => by cases hf.symm.trans hl
    rw [erase_primary, List.cons_append, List.cons_append, List.append_assoc]
    refine (bind_of_ok (take?_neg (decide_eq_false hlit))).trans ?_
    refine (bind_of_ok (take?_pos (decide_eq_true hf))).trans ?_
    refine (bind_of_ok (take?_pos (decide_eq_true hl))).trans ?_
    exact bind_of_ok (ih r rest hr)
  | @group l r ts tree hl _ hr ih =>
    intro rest _
    have hlit : ¬ l.form.1 = .literal := by simp [hl]
    have hname : ¬ l.form.1 = .identifier := by simp [hl]
    rw [erase_primary, List.cons_append, List.append_assoc]
    refine (bind_of_ok (take?_neg (decide_eq_false hlit))).trans ?_
    refine (bind_of_ok (take?_neg (decide_eq_false hname))).trans ?_
    refine (bind_of_ok (take?_pos (decide_eq_true hl))).trans ?_
    refine (bind_of_ok (ih (r :: rest) (ends_of_closing hr))).trans ?_
    exact bind_of_ok (expect_cons hr)
  | term _ ih =>
    intro rest hrest
    rw [erase_operand_sum]
    exact ih rest (hrest.mono (by decide))
  | factor _ ih =>
    intro rest hrest
    rw [erase_operand_product]
    exact ih rest hrest
  | @noLinks tier =>
    intro left rest hrest
    have hstop : take? (fun form => form.1 = .operator && tier.operators.contains form.2) rest =
        .ok none rest := by
      refine take?_of_next fun form hf => Bool.eq_false_iff.mpr fun ho => ?_
      simp only [Bool.and_eq_true, decide_eq_true_eq, List.contains_iff_mem] at ho
      exact (hrest _ _ hf).2 ⟨ho.1, List.mem_append_left _ ho.2⟩
    rw [erase_chainFrom, List.nil_append, bind_of_ok hstop]
    rfl
  | @link tier o us vs right pairs ho hmem _ hl ihr ihl =>
    intro left rest hrest
    have htake : (o.form.1 = .operator && tier.operators.contains o.form.2) = true := by
      rw [Bool.and_eq_true]
      exact ⟨decide_eq_true ho, List.contains_iff_mem.mpr hmem⟩
    rw [erase_chainFrom, List.cons_append, List.append_assoc, bind_of_ok (take?_pos htake)]
    refine (bind_of_ok (ihr _ (hl.ends_links hrest))).trans ?_
    rw [ihl _ rest hrest]
    rfl
  | @chain tier us vs first pairs hf hl ihf ihl =>
    intro rest hrest
    rw [erase_chain, List.append_assoc, bind_of_ok (ihf _ (hl.ends_links hrest)),
      ihl _ rest hrest]
  | noArguments =>
    intro r rest hr
    rw [erase_arguments, List.nil_append, bind_of_ok (take?_pos (decide_eq_true hr))]
    rfl
  | @someArguments us vs first others hf ho ihf iho =>
    intro r rest hr
    obtain ⟨t, us, rfl, ht⟩ := hf.starts trivial
    have hopen : ¬ t.form = (.paren, ")") := fun hc => by
      rw [hc] at ht
      exact absurd ht (by simp [OperandStart])
    rw [erase_arguments, List.append_assoc, List.cons_append,
      bind_of_ok (take?_neg (decide_eq_false hopen))]
    refine (look_bind _ _).trans ?_
    refine (bind_of_ok (ihf _ (ho.ends_moreArguments hr))).trans ?_
    refine (bind_of_ok (iho r rest hr)).trans ?_
    exact bind_of_ok (expect_cons hr)
  | noMoreArguments =>
    intro r rest hr
    have hstop : take? (·.2 = ",") (r :: rest) = .ok none (r :: rest) := by
      refine take?_neg (decide_eq_false ?_)
      simp [hr]
    rw [erase_moreArguments, List.nil_append, bind_of_ok hstop]
    rfl
  | @moreArguments s us vs next others hs _ ho ihn iho =>
    intro r rest hr
    rw [erase_moreArguments, List.cons_append, List.append_assoc,
      bind_of_ok (take?_pos (decide_eq_true hs))]
    refine (bind_of_ok (ihn _ (ho.ends_moreArguments hr))).trans ?_
    exact bind_of_ok (iho r rest hr)

/-! ## Statements -/

theorem ends_of_kind {operators : List String} (hp : t.kind ≠ .paren) (ho : t.kind ≠ .operator) :
    Ends operators (next (t :: us)) := by
  rintro kind lexeme hf
  obtain ⟨rfl, rfl⟩ := Prod.mk.inj (Option.some.inj hf)
  exact ⟨fun h => hp h.1, fun h => ho h.1⟩

theorem ends_of_brace {operators : List String} {lexeme : String} (h : t.form = (.brace, lexeme)) :
    Ends operators (next (t :: us)) := by
  have hk : t.kind = .brace := kind_of_form h
  exact ends_of_kind (by simp [hk]) (by simp [hk])

theorem ends_nil {operators : List String} : Ends operators (next []) := fun _ _ h => by cases h

theorem Clause.Spelled.ends_statements {operators : List String} {trees : List Node}
    (h : (Clause.statements trees).Spelled ts) (hrest : Ends operators (next rest)) :
    Ends operators (next (ts ++ rest)) := by
  cases h with
  | noStatements => exact hrest
  | statements hf _ =>
    obtain ⟨t, us, rfl, ht⟩ := hf.starts
    rcases ht with ht | ht
    · exact ends_of_kind (by simp [ht]) (by simp [ht])
    · exact ends_of_kind (by simp [ht]) (by simp [ht])

namespace Rule

/-- The first token decides which rule reads a statement. -/
theorem statement_cons : erase statement (t :: us) =
    (if t.form = (.keyword, "fn") then erase functionDecl
      else if t.form = (.keyword, "if") then erase ifStatement
      else if t.form = (.keyword, "print") then erase printStatement
      else if t.form.1 = .identifier then erase assignmentOrCall
      else stop none) (t :: us) := by
  rw [erase_statement]
  exact look_bind _ _

theorem statement_of_fn (h : t.form = (.keyword, "fn")) :
    erase statement (t :: us) = erase functionDecl (t :: us) := by
  rw [statement_cons, if_pos h]

theorem statement_of_if (h : t.form = (.keyword, "if")) :
    erase statement (t :: us) = erase ifStatement (t :: us) := by
  simp [statement_cons, h]

theorem statement_of_print (h : t.form = (.keyword, "print")) :
    erase statement (t :: us) = erase printStatement (t :: us) := by
  simp [statement_cons, h]

theorem statement_of_identifier (h : t.kind = .identifier) :
    erase statement (t :: us) = erase assignmentOrCall (t :: us) := by
  simp [statement_cons, Token.form, h]

theorem moreParameters_append {names : List String} (h : MoreParametersSpelled names ts)
    (ht : t.form = (.paren, ")")) :
    erase moreParameters (ts ++ t :: rest) = .ok names (t :: rest) := by
  induction h with
  | nil =>
    have hstop : ¬ t.form.2 = "," := by simp [ht]
    rw [erase_moreParameters]
    exact bind_of_ok (take?_neg (decide_eq_false hstop))
  | cons hs hn _ ih =>
    rw [erase_moreParameters]
    refine (bind_of_ok (take?_pos (decide_eq_true hs))).trans ?_
    refine (bind_of_ok (expectIdentifier_cons hn)).trans ?_
    exact bind_of_ok ih

theorem parameters_append {names : List String} (h : ParametersSpelled names ts)
    (ht : t.form = (.paren, ")")) :
    erase parameters (ts ++ t :: rest) = .ok names (t :: rest) := by
  rw [erase_parameters]
  cases h with
  | nil =>
    have hstop : ¬ t.form.1 = .identifier := by simp [ht]
    exact bind_of_ok (take?_neg (decide_eq_false hstop))
  | cons hn hmore =>
    refine (bind_of_ok (take?_pos (decide_eq_true hn))).trans ?_
    exact bind_of_ok (moreParameters_append hmore ht)

theorem functionHeader_append {k n l r : Token} {names : List String}
    (hk : k.form = (.keyword, "fn")) (hn : n.kind = .identifier) (hl : l.form = (.paren, "("))
    (h : ParametersSpelled names ts) (hr : r.form = (.paren, ")")) :
    erase functionHeader (k :: n :: l :: (ts ++ r :: rest)) = .ok (n.lexeme, names) rest := by
  rw [erase_functionHeader]
  refine (bind_of_ok (expect_cons hk)).trans ?_
  refine (bind_of_ok (expectIdentifier_cons hn)).trans ?_
  refine (bind_of_ok (expect_cons hl)).trans ?_
  refine (bind_of_ok (parameters_append h hr)).trans ?_
  exact bind_of_ok (expect_cons hr)

end Rule

/-- What the rules for a clause answer on the tokens `ts`. -/
def Clause.Read : Clause → List Token → Prop
  | .statement tree, ts => ∀ rest, Ends (Tier.sum.operators ++ Tier.sum.inner) (next rest) →
    erase Grammar.statement (ts ++ rest) = .ok tree rest
  | .statements trees, ts =>
    (∀ c rest, c.form = (.brace, "\x7d") →
      erase blockBody (ts ++ c :: rest) = .ok trees (c :: rest)) ∧
    Rule.statements ts = .ok trees []
  | .block body, ts => ∀ rest, erase Grammar.block (ts ++ rest) = .ok body rest

/-- **Every spelled clause is read.** -/
theorem Clause.Spelled.read {clause : Clause} (h : clause.Spelled ts) : clause.Read ts := by
  induction h with
  | @functionDecl k n l r us vs names body hk hn hl hp hr _ ih =>
    intro rest _
    rw [List.cons_append, statement_of_fn hk, erase_functionDecl, List.cons_append,
      List.cons_append, List.append_assoc, List.cons_append]
    refine (bind_of_ok (functionHeader_append hk hn hl hp hr)).trans ?_
    exact bind_of_ok (ih rest)
  | @ifStatement k us vs condition body hk hc hb ih =>
    intro rest _
    -- The brace that opens the block ends the condition.
    have hends : Ends (Tier.sum.operators ++ Tier.sum.inner) (next (vs ++ rest)) := by
      cases hb with
      | block ho _ _ => exact ends_of_brace ho
    rw [List.cons_append, List.append_assoc, statement_of_if hk, erase_ifStatement]
    refine (bind_of_ok (expect_cons hk)).trans ?_
    refine (bind_of_ok (hc.read _ hends)).trans ?_
    exact bind_of_ok (ih rest)
  | print hk hl ha hr =>
    intro rest _
    rw [List.cons_append, List.cons_append, List.append_assoc, statement_of_print hk,
      erase_printStatement]
    refine (bind_of_ok (expect_cons hk)).trans ?_
    refine (bind_of_ok (expect_cons hl)).trans ?_
    refine (bind_of_ok (ha.read _ (ends_of_closing hr))).trans ?_
    exact bind_of_ok (expect_cons hr)
  | call hf hl ha hr =>
    intro rest _
    rw [List.cons_append, List.cons_append, List.append_assoc, statement_of_identifier hf,
      erase_assignmentOrCall]
    refine (bind_of_ok (expectIdentifier_cons hf)).trans ?_
    refine (bind_of_ok (take?_pos (decide_eq_true hl))).trans ?_
    exact bind_of_ok (ha.read _ rest hr)
  | @compoundAssignment x o us value hx ho hv =>
    intro rest hrest
    have hcall : ¬ o.form = (.paren, "(") := by simp [ho]
    rw [List.cons_append, List.cons_append, statement_of_identifier hx, erase_assignmentOrCall]
    refine (bind_of_ok (expectIdentifier_cons hx)).trans ?_
    refine (bind_of_ok (take?_neg (decide_eq_false hcall))).trans ?_
    refine (bind_of_ok (take?_pos (decide_eq_true ho))).trans ?_
    exact bind_of_ok (hv.read rest hrest)
  | @assignment x o us value hx ho hv =>
    intro rest hrest
    have hcall : ¬ o.form = (.paren, "(") := by simp [ho]
    have hcompound : ¬ o.form = (.operator, "+=") := by simp [ho]
    rw [List.cons_append, List.cons_append, statement_of_identifier hx, erase_assignmentOrCall]
    refine (bind_of_ok (expectIdentifier_cons hx)).trans ?_
    refine (bind_of_ok (take?_neg (decide_eq_false hcall))).trans ?_
    refine (bind_of_ok (take?_neg (decide_eq_false hcompound))).trans ?_
    refine (bind_of_ok (expect_cons ho)).trans ?_
    exact bind_of_ok (hv.read rest hrest)
  | noStatements =>
    refine ⟨fun c rest hc => ?_, ?_⟩
    · rw [erase_blockBody]
      refine (look_bind _ _).trans ?_
      rw [List.nil_append, next_cons, hc]
      rfl
    · rw [statements_eq]
      rfl
  | @statements us vs first others hf ho ihf iho =>
    obtain ⟨t, us, rfl, ht⟩ := hf.starts
    -- Inside a block a brace ends the last statement, and at the top level the input does.
    refine ⟨fun c rest hc => ?_, ?_⟩
    · have hopen : ¬ t.form = (.brace, "\x7d") := fun hb => by
        rw [kind_of_form hb] at ht
        simp at ht
      rw [erase_blockBody]
      refine (look_bind _ _).trans ?_
      rw [List.append_assoc, List.cons_append, next_cons]
      simp only [if_neg hopen]
      refine (bind_of_ok (ihf _ (ho.ends_statements (ends_of_brace hc)))).trans ?_
      exact bind_of_ok (iho.1 c rest hc)
    · rw [statements_eq]
      refine (look_bind _ _).trans ?_
      have hends : Ends (Tier.sum.operators ++ Tier.sum.inner) (next vs) := by
        have h : Ends (Tier.sum.operators ++ Tier.sum.inner) (next (vs ++ [])) :=
          ho.ends_statements ends_nil
        rwa [List.append_nil] at h
      refine (bind_of_ok (ihf _ hends)).trans ?_
      exact bind_of_ok iho.2
  | @block o c us body ho _ hc ih =>
    intro rest
    rw [List.cons_append, List.append_assoc, erase_block]
    refine (bind_of_ok (expect_cons ho)).trans ?_
    refine (bind_of_ok (ih.1 c rest hc)).trans ?_
    exact bind_of_ok (expect_cons hc)

/-! ## Programs -/

theorem parse_of_statements {trees : List Node} (h : Rule.statements ts = .ok trees []) :
    parse ts = .ok ⟨trees⟩ := by
  rw [Rule.statements] at h
  rw [parse]
  cases hs : Grammar.statements ts with
  | error f => rw [hs] at h; cases h
  | ok trees => rw [hs] at h; cases h; rfl

theorem parse_of_derives {p : Program} (h : Derives ts p) : parse ts = .ok p :=
  parse_of_statements h.read.2

end Pocl.Grammar
