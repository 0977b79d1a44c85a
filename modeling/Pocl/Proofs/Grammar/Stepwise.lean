import Pocl.Proofs.Grammar.Rule

/-!
# Properties that sequencing keeps

Every rule is a sequence of steps, and where it calls a rule again it has taken a token in between.
So a property of rules that holds of the steps and survives sequencing holds of every rule, at
every token list. The induction is done here, once for all such properties.

## Main definitions

* `Stepwise P`: `P` holds of the steps and survives sequencing
* `OnExpressions P ts`, `OnStatements P ts`: `P` holds at `ts` of the rules for expressions, of
  the rules for statements

## Main results

* `Stepwise.onExpressions`, `Stepwise.onStatements`, `Stepwise.statements`: a stepwise property
  holds of every rule
-/

namespace Pocl.Grammar.Rule

variable {P : (α : Type) → Rule α → List Token → Prop} {ts : List Token}

/-- The property `P` holds of the steps and survives sequencing. -/
structure Stepwise (P : (α : Type) → Rule α → List Token → Prop) : Prop where
  pure {α : Type} (v : α) (ts : List Token) : P α (Pure.pure v) ts
  look (ts : List Token) : P _ look ts
  take? (p : TokenKind × String → Bool) (ts : List Token) : P _ (take? p) ts
  stop {α : Type} (e : Option Expected) (ts : List Token) : P α (stop e) ts
  bind {α β : Type} {r : Rule α} {k : α → Rule β} {ts : List Token} :
    P α r ts → (∀ v rest, r ts = .ok v rest → P β (k v) rest) → P β (r >>= k) ts

/-- The property `P` at `ts`, for the rules that call one another on expressions. -/
structure OnExpressions (P : (α : Type) → Rule α → List Token → Prop) (ts : List Token) : Prop where
  primary : P _ (erase primary) ts
  operand (tier : Tier) : P _ (erase (operand tier)) ts
  chain (tier : Tier) : P _ (erase (chain tier)) ts
  chainFrom (tier : Tier) (left : Node) : P _ (erase (chainFrom tier left)) ts
  arguments : P _ (erase arguments) ts
  moreArguments : P _ (erase moreArguments) ts

/-- The property `P` at `ts`, for the rules that call one another on statements. -/
structure OnStatements (P : (α : Type) → Rule α → List Token → Prop) (ts : List Token) : Prop where
  ifStatement : P _ (erase ifStatement) ts
  functionDecl : P _ (erase functionDecl) ts
  block : P _ (erase block) ts
  blockBody : P _ (erase blockBody) ts
  statement : P _ (erase statement) ts

namespace Stepwise

variable (hP : Stepwise P)

include hP

/-! ## Sequences -/

/-- Taking a token, or leaving the first one. -/
theorem take?_bind {α : Type} {p : TokenKind × String → Bool} {k : Option String → Rule α}
    (hsome : ∀ lexeme us, us.length < ts.length → P α (k (some lexeme)) us)
    (hnone : P α (k none) ts) : P α (Rule.take? p >>= k) ts := by
  apply hP.bind (hP.take? p ts)
  intro found rest h
  cases ts with
  | nil =>
    cases h
    exact hnone
  | cons t us =>
    rw [Rule.take?] at h
    split at h
    · cases h
      exact hsome _ _ (Nat.lt_succ_self _)
    · cases h
      exact hnone

theorem look_bind {α : Type} {k : Option (TokenKind × String) → Rule α}
    (h : P α (k (next ts)) ts) : P α (Rule.look >>= k) ts := by
  apply hP.bind (hP.look ts)
  rintro form rest h'
  cases h'
  exact h

/-- What follows a rule with a bound has fewer tokens. -/
theorem erase_bind {α β : Type} {r : (ts : List Token) → Answer α ts.length} {k : α → Rule β}
    (hr : P α (erase r) ts) (hk : ∀ v us, us.length < ts.length → P β (k v) us) :
    P β (erase r >>= k) ts :=
  hP.bind hr fun v us h => hk v us (length_rest_lt_of_erase h)

/-! ## Single tokens -/

theorem expect (kind : TokenKind) (lexeme : String) (ts : List Token) :
    P _ (erase (Grammar.expect kind lexeme)) ts := by
  rw [erase_expect]
  apply hP.take?_bind
  · intro lexeme us _
    exact hP.pure _ _
  · exact hP.stop _ _

theorem expectIdentifier (ts : List Token) : P _ (erase Grammar.expectIdentifier) ts := by
  rw [erase_expectIdentifier]
  apply hP.take?_bind
  · intro name us _
    exact hP.pure _ _
  · exact hP.stop _ _

/-! ## Expressions -/

section Expressions

variable (ih : ∀ us : List Token, us.length < ts.length → OnExpressions P us)
include ih

theorem primary : P _ (erase Grammar.primary) ts := by
  rw [erase_primary]
  apply hP.take?_bind
  · intro value us _
    exact hP.pure _ _
  apply hP.take?_bind
  · intro name us hus
    apply hP.take?_bind
    · intro _ vs hvs
      exact hP.bind (ih vs (Nat.lt_trans hvs hus)).arguments fun _ _ _ => hP.pure _ _
    · exact hP.pure _ _
  apply hP.take?_bind
  · intro _ us hus
    apply hP.bind ((ih us hus).chain .sum)
    intro tree rest _
    exact hP.bind (hP.expect _ _ _) fun _ _ _ => hP.pure _ _
  · exact hP.stop _ _

theorem chainFrom (tier : Tier) (left : Node) : P _ (erase (Grammar.chainFrom tier left)) ts := by
  rw [erase_chainFrom]
  apply hP.take?_bind
  · intro operator us hus
    apply hP.erase_bind ((ih us hus).operand tier)
    intro right vs hvs
    exact (ih vs (Nat.lt_trans hvs hus)).chainFrom tier _
  · exact hP.pure _ _

theorem chain {tier : Tier} (h : P _ (erase (Grammar.operand tier)) ts) :
    P _ (erase (Grammar.chain tier)) ts := by
  rw [erase_chain]
  apply hP.erase_bind h
  intro left us hus
  exact (ih us hus).chainFrom tier left

/-- The tighter tier first: the operands of sums are chains of products. -/
theorem operand (tier : Tier) : P _ (erase (Grammar.operand tier)) ts := by
  have hproduct : P _ (erase (Grammar.operand .product)) ts := by
    rw [erase_operand_product]
    exact hP.primary ih
  cases tier with
  | product => exact hproduct
  | sum =>
    rw [erase_operand_sum]
    exact hP.chain ih hproduct

theorem moreArguments : P _ (erase Grammar.moreArguments) ts := by
  rw [erase_moreArguments]
  apply hP.take?_bind
  · intro _ us hus
    apply hP.erase_bind ((ih us hus).chain .sum)
    intro argument vs hvs
    exact hP.bind (ih vs (Nat.lt_trans hvs hus)).moreArguments fun _ _ _ => hP.pure _ _
  · exact hP.pure _ _

theorem arguments : P _ (erase Grammar.arguments) ts := by
  rw [erase_arguments]
  apply hP.take?_bind
  · intro _ us _
    exact hP.pure _ _
  apply hP.look_bind
  cases ts with
  | nil => exact hP.stop _ _
  | cons t us =>
    -- Nothing has been taken yet, so that the first argument is not left to the induction.
    apply hP.erase_bind (hP.chain ih (hP.operand ih .sum))
    intro first vs hvs
    apply hP.bind (ih vs hvs).moreArguments
    intro others ws _
    exact hP.bind (hP.expect _ _ _) fun _ _ _ => hP.pure _ _

end Expressions

theorem onExpressions (ts : List Token) : OnExpressions P ts :=
  have ih : ∀ us : List Token, us.length < ts.length → OnExpressions P us := fun us _ =>
    onExpressions us
  { primary := hP.primary ih
    operand := hP.operand ih
    chain := fun tier => hP.chain ih (hP.operand ih tier)
    chainFrom := hP.chainFrom ih
    arguments := hP.arguments ih
    moreArguments := hP.moreArguments ih }
termination_by ts.length

/-! ## Statements without a block -/

theorem assignmentOrCall (ts : List Token) : P _ (erase Grammar.assignmentOrCall) ts := by
  rw [erase_assignmentOrCall]
  apply hP.bind (hP.expectIdentifier _)
  intro name us _
  apply hP.take?_bind
  · intro _ vs _
    exact hP.bind (hP.onExpressions vs).arguments fun _ _ _ => hP.pure _ _
  apply hP.take?_bind
  · intro _ vs _
    exact hP.bind ((hP.onExpressions vs).chain .sum) fun _ _ _ => hP.pure _ _
  apply hP.bind (hP.expect _ _ _)
  intro _ vs _
  exact hP.bind ((hP.onExpressions vs).chain .sum) fun _ _ _ => hP.pure _ _

theorem printStatement (ts : List Token) : P _ (erase Grammar.printStatement) ts := by
  rw [erase_printStatement]
  apply hP.bind (hP.expect _ _ _)
  intro _ us _
  apply hP.bind (hP.expect _ _ _)
  intro _ vs _
  apply hP.bind ((hP.onExpressions vs).chain .sum)
  intro argument ws _
  exact hP.bind (hP.expect _ _ _) fun _ _ _ => hP.pure _ _

/-! ## Function headers -/

theorem moreParameters (ts : List Token) : P _ (erase Grammar.moreParameters) ts := by
  rw [erase_moreParameters]
  apply hP.take?_bind
  · intro _ us hus
    apply hP.erase_bind (hP.expectIdentifier us)
    intro name vs hvs
    have hlt := Nat.lt_trans hvs hus
    exact hP.bind (moreParameters vs) fun _ _ _ => hP.pure _ _
  · exact hP.pure _ _
termination_by ts.length
decreasing_by exact hlt

theorem parameters (ts : List Token) : P _ (erase Grammar.parameters) ts := by
  rw [erase_parameters]
  apply hP.take?_bind
  · intro name us _
    exact hP.bind (hP.moreParameters us) fun _ _ _ => hP.pure _ _
  · exact hP.pure _ _

theorem functionHeader (ts : List Token) : P _ (erase Grammar.functionHeader) ts := by
  rw [erase_functionHeader]
  apply hP.bind (hP.expect _ _ _)
  intro _ us _
  apply hP.bind (hP.expectIdentifier _)
  intro name vs _
  apply hP.bind (hP.expect _ _ _)
  intro _ ws _
  apply hP.bind (hP.parameters _)
  intro params rest _
  exact hP.bind (hP.expect _ _ _) fun _ _ _ => hP.pure _ _

/-! ## Statements with a block -/

section Statements

variable (ih : ∀ us : List Token, us.length < ts.length → OnStatements P us)
include ih

theorem ifStatement : P _ (erase Grammar.ifStatement) ts := by
  rw [erase_ifStatement]
  apply hP.erase_bind (hP.expect _ _ _)
  intro _ us hus
  apply hP.erase_bind ((hP.onExpressions us).chain .sum)
  intro condition vs hvs
  exact hP.bind (ih vs (Nat.lt_trans hvs hus)).block fun _ _ _ => hP.pure _ _

theorem functionDecl : P _ (erase Grammar.functionDecl) ts := by
  rw [erase_functionDecl]
  apply hP.erase_bind (hP.functionHeader ts)
  intro header us hus
  exact hP.bind (ih us hus).block fun _ _ _ => hP.pure _ _

theorem block : P _ (erase Grammar.block) ts := by
  rw [erase_block]
  apply hP.erase_bind (hP.expect _ _ _)
  intro _ us hus
  apply hP.bind (ih us hus).blockBody
  intro body vs _
  exact hP.bind (hP.expect _ _ _) fun _ _ _ => hP.pure _ _

theorem statement : P _ (erase Grammar.statement) ts := by
  rw [erase_statement]
  apply hP.look_bind
  cases ts with
  | nil => exact hP.stop _ _
  | cons t us =>
    simp only [next_cons]
    split
    · exact hP.functionDecl ih
    split
    · exact hP.ifStatement ih
    split
    · exact hP.printStatement _
    split
    · exact hP.assignmentOrCall _
    · exact hP.stop _ _

theorem blockBody : P _ (erase Grammar.blockBody) ts := by
  rw [erase_blockBody]
  apply hP.look_bind
  cases ts with
  | nil => exact hP.pure _ _
  | cons t us =>
    simp only [next_cons]
    split
    · exact hP.pure _ _
    · apply hP.erase_bind (hP.statement ih)
      intro first vs hvs
      exact hP.bind (ih vs hvs).blockBody fun _ _ _ => hP.pure _ _

end Statements

theorem onStatements (ts : List Token) : OnStatements P ts :=
  have ih : ∀ us : List Token, us.length < ts.length → OnStatements P us := fun us _ =>
    onStatements us
  { ifStatement := hP.ifStatement ih
    functionDecl := hP.functionDecl ih
    block := hP.block ih
    blockBody := hP.blockBody ih
    statement := hP.statement ih }
termination_by ts.length

/-! ## Programs -/

theorem statements (ts : List Token) : P _ Rule.statements ts := by
  rw [statements_eq]
  apply hP.look_bind
  cases ts with
  | nil => exact hP.pure _ _
  | cons t us =>
    apply hP.erase_bind (hP.onStatements _).statement
    intro first vs hlt
    exact hP.bind (statements vs) fun _ _ _ => hP.pure _ _
termination_by ts.length
decreasing_by exact hlt

end Stepwise

end Pocl.Grammar.Rule
