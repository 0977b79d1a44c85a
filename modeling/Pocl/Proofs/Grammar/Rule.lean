import Pocl.Grammar

/-!
# Rules as stateful computations

A rule of the grammar reads from the front of a token list, which is its state: it ends with a
value or with an expectation, and in both cases with the tokens left. Stripped of the bounds that
make the recursion terminate, each rule is a sequence of the three steps `look`, `take?` and
`stop`, and no step sees more of a token than its class and its lexeme.

## Main definitions

* `Token.form t`: the class and the lexeme of a token, without its place
* `Rule α`: a computation over the tokens left
* `next ts`: the form of the first token
* `look`, `take?`, `stop`: the steps
* `erase r`: the rule `r` without its bound

## Main results

* `erase_primary`, …, `erase_statement`, `statements_eq`: every rule as a sequence of steps
* `length_rest_lt_of_erase`: a rule leaves fewer tokens than its bound
-/

namespace Pocl

/-- The class and the lexeme of a token. -/
def Token.form (t : Token) : TokenKind × String :=
  (t.kind, t.lexeme)

theorem Token.form_eq_iff {t : Token} {kind : TokenKind} {lexeme : String} :
    t.form = (kind, lexeme) ↔ t.is kind lexeme = true := by
  rw [is_iff, form, Prod.mk.injEq]

namespace Grammar

/-- A computation over the tokens left, which stops with an expectation or ends with a value. -/
abbrev Rule (α : Type) := EStateM (Option Expected) (List Token) α

/-- An answer without the bound on the tokens left. -/
def Answer.erase {α : Type} {n : Nat} :
    Answer α n → EStateM.Result (Option Expected) (List Token) α
  | .ok p => .ok p.value p.rest
  | .error f => .error f.expected f.rest

namespace Rule

variable {α β : Type} {m n : Nat} {b : List Token → Nat}

/-! ## Steps -/

/-- The form of the first token, or `none` at the end of the input. -/
def next (ts : List Token) : Option (TokenKind × String) :=
  ts.head?.map Token.form

/-- The form of the next token, which stays. -/
def look : Rule (Option (TokenKind × String)) := fun ts =>
  .ok (next ts) ts

/-- Takes the next token and answers its lexeme, if its form passes the test. -/
def take? (p : TokenKind × String → Bool) : Rule (Option String)
  | [] => .ok none []
  | t :: us => if p t.form then .ok (some t.lexeme) us else .ok none (t :: us)

/-- Stops where the expectation `e` is not met. -/
def stop (e : Option Expected) : Rule α := fun ts =>
  .error e ts

@[simp] theorem next_nil : next [] = none := rfl

@[simp] theorem next_cons (t : Token) (us : List Token) : next (t :: us) = some t.form := rfl

theorem take?_pos {p : TokenKind × String → Bool} {t : Token} {us : List Token}
    (h : p t.form = true) : take? p (t :: us) = .ok (some t.lexeme) us := by
  rw [take?, if_pos h]

theorem take?_neg {p : TokenKind × String → Bool} {t : Token} {us : List Token}
    (h : p t.form = false) : take? p (t :: us) = .ok none (t :: us) := by
  rw [take?, if_neg (Bool.not_eq_true _ ▸ h)]

theorem bind_of_ok {r : Rule α} {k : α → Rule β} {ts rest : List Token} {v : α}
    (h : r ts = .ok v rest) : (r >>= k) ts = k v rest := by
  show EStateM.bind r k ts = _
  rw [EStateM.bind, h]

theorem bind_of_error {r : Rule α} {k : α → Rule β} {ts rest : List Token} {e : Option Expected}
    (h : r ts = .error e rest) : (r >>= k) ts = .error e rest := by
  show EStateM.bind r k ts = _
  rw [EStateM.bind, h]

theorem bind_eq_ok_iff {r : Rule α} {k : α → Rule β} {ts rest : List Token} {w : β} :
    (r >>= k) ts = .ok w rest ↔ ∃ v us, r ts = .ok v us ∧ k v us = .ok w rest := by
  cases hr : r ts with
  | ok v us => simp [bind_of_ok hr, and_assoc]
  | error e us => simp [bind_of_error hr]

theorem bind_eq_error_iff {r : Rule α} {k : α → Rule β} {ts rest : List Token}
    {e : Option Expected} :
    (r >>= k) ts = .error e rest ↔
      r ts = .error e rest ∨ ∃ v us, r ts = .ok v us ∧ k v us = .error e rest := by
  cases hr : r ts with
  | ok v us => simp [bind_of_ok hr, and_assoc]
  | error e us => simp [bind_of_error hr]

theorem look_bind (k : Option (TokenKind × String) → Rule α) (ts : List Token) :
    (look >>= k) ts = k (next ts) ts :=
  bind_of_ok rfl

/-! ## Leaving out the bound -/

/-- A rule without its bound. -/
def erase (r : (ts : List Token) → Answer α (b ts)) : Rule α := fun ts =>
  (r ts).erase

/-- The statements of a whole token list, as a rule that leaves nothing. -/
def statements : Rule (List Node) := fun ts =>
  match Grammar.statements ts with
  | .ok trees => .ok trees []
  | .error f => .error f.expected f.rest

theorem length_rest_lt_of_erase {r : (ts : List Token) → Answer α (b ts)} {ts rest : List Token}
    {v : α} (h : erase r ts = .ok v rest) : rest.length < b ts := by
  rw [erase] at h
  cases hr : r ts with
  | error f => rw [hr] at h; cases h
  | ok p => rw [hr] at h; cases h; exact p.rest_lt

theorem erase_bind {a : Answer α n} {k : Parsed α n → Answer β m} {r : Rule α}
    {k' : α → Rule β} {ts : List Token} (ha : Answer.erase a = r ts)
    (hk : ∀ p, Answer.erase (k p) = k' p.value p.rest) :
    Answer.erase (a >>= k) = (r >>= k') ts := by
  cases a with
  | error f => exact (bind_of_error ha.symm).symm
  | ok p => exact (hk p).trans (bind_of_ok ha.symm).symm

/-- Raising the bound of an answer changes nothing else. -/
theorem erase_raise {a : Answer α n} (h : ∀ p : Parsed α n, p.rest.length < m) :
    Answer.erase (a >>= fun p => (.ok ⟨p.value, p.rest, h p⟩ : Answer α m)) = Answer.erase a := by
  cases a <;> rfl

/-- An optional token is taken or left according to its form. -/
theorem erase_take? {p : TokenKind × String → Bool} {q : Token → Bool} {a : Answer α n}
    {k : Option String → Rule α} {ts : List Token} (hq : ∀ t, q t = p t.form)
    (hnone : eatIf? q ts = none → Answer.erase a = k none ts)
    (hsome : ∀ v, eatIf? q ts = some v → Answer.erase a = k (some v.value) v.rest) :
    Answer.erase a = (take? p >>= k) ts := by
  cases ts with
  | nil => exact hnone rfl
  | cons t us =>
    by_cases h : p t.form = true
    · rw [bind_of_ok (take?_pos h)]
      exact hsome ⟨t.lexeme, us, Nat.lt_succ_self _⟩ (by rw [eatIf?, hq, if_pos h])
    · rw [bind_of_ok (take?_neg (Bool.not_eq_true _ ▸ h))]
      exact hnone (by rw [eatIf?, hq, if_neg h])

theorem is_eq_form (kind : TokenKind) (lexeme : String) (t : Token) :
    t.is kind lexeme = decide (t.form = (kind, lexeme)) := by
  rw [Bool.eq_iff_iff, decide_eq_true_iff, Token.form_eq_iff]

/-! ## Single tokens -/

theorem erase_expect (kind : TokenKind) (lexeme : String) :
    erase (expect kind lexeme) = (do
      match ← take? (· = (kind, lexeme)) with
      | some _ => pure ()
      | none => stop (some ⟨kind, some lexeme⟩)) := by
  funext ts
  refine erase_take? (q := fun t => t.is kind lexeme) (is_eq_form kind lexeme) ?_ ?_
  · intro h
    cases ts with
    | nil => rfl
    | cons t us =>
      have : ¬ t.is kind lexeme = true := by simpa [eatIf?] using h
      rw [expect, if_neg this]
      rfl
  · intro v h
    cases ts with
    | nil => cases h
    | cons t us =>
      simp only [eatIf?, Option.ite_none_right_eq_some, Option.some.injEq] at h
      obtain ⟨h, rfl⟩ := h
      rw [expect, if_pos h]
      rfl

theorem erase_expectIdentifier :
    erase expectIdentifier = (do
      match ← take? (·.1 = .identifier) with
      | some name => pure name
      | none => stop (some ⟨.identifier, none⟩)) := by
  funext ts
  refine erase_take? (q := fun t => t.kind = .identifier) (fun _ => rfl) ?_ ?_
  · intro h
    cases ts with
    | nil => rfl
    | cons t us =>
      have : ¬ t.kind = .identifier := by simpa [eatIf?] using h
      rw [expectIdentifier, if_neg this]
      rfl
  · intro v h
    cases ts with
    | nil => cases h
    | cons t us =>
      simp only [eatIf?, Option.ite_none_right_eq_some, Option.some.injEq, decide_eq_true_eq] at h
      obtain ⟨h, rfl⟩ := h
      rw [expectIdentifier, if_pos h]
      rfl

/-! ## Expressions -/

theorem erase_primary :
    erase primary = (do
      match ← take? (·.1 = .literal) with
      | some value => pure (.number value)
      | none =>
        match ← take? (·.1 = .identifier) with
        | some name =>
          match ← take? (· = (.paren, "(")) with
          | some _ => do
            let args ← erase arguments
            pure (.functionCall name args)
          | none => pure (.identifier name)
        | none =>
          match ← take? (· = (.paren, "(")) with
          | some _ => do
            let tree ← erase (chain .sum)
            erase (expect .paren ")")
            pure tree
          | none => stop none) := by
  funext ts
  cases ts with
  | nil => rw [erase, primary]; rfl
  | cons t us =>
    rw [erase, primary]
    by_cases hl : t.kind = .literal
    · rw [if_pos hl, bind_of_ok (take?_pos (decide_eq_true hl))]
      rfl
    rw [if_neg hl, bind_of_ok (take?_neg (decide_eq_false hl))]
    by_cases hi : t.kind = .identifier
    · simp only [if_pos hi]
      rw [bind_of_ok (take?_pos (decide_eq_true hi))]
      refine erase_take? (is_eq_form .paren "(") (fun h => ?_) (fun v h => ?_)
      · change eat? .paren "(" us = none at h
        simp only [h]
        rfl
      · change eat? .paren "(" us = some v at h
        simp only [h]
        refine erase_bind rfl fun p => ?_
        rfl
    simp only [if_neg hi]
    rw [bind_of_ok (take?_neg (decide_eq_false hi))]
    by_cases ho : t.is .paren "(" = true
    · simp only [if_pos ho]
      rw [bind_of_ok (take?_pos (decide_eq_true (Token.form_eq_iff.mpr ho)))]
      refine erase_bind rfl fun p => ?_
      refine erase_bind rfl fun p => ?_
      rfl
    · simp only [if_neg ho]
      rw [bind_of_ok (take?_neg (decide_eq_false (mt Token.form_eq_iff.mp ho)))]
      rfl

theorem erase_operand_sum : erase (operand .sum) = erase (chain .product) := by
  funext ts
  rw [erase, operand, erase]

theorem erase_operand_product : erase (operand .product) = erase primary := by
  funext ts
  rw [erase, operand, erase]

theorem erase_chain (tier : Tier) :
    erase (chain tier) = (do
      let left ← erase (operand tier)
      erase (chainFrom tier left)) := by
  funext ts
  rw [erase, chain]
  refine erase_bind rfl fun p => ?_
  exact erase_raise _

theorem erase_chainFrom (tier : Tier) (left : Node) :
    erase (chainFrom tier left) = (do
      match ← take? (fun form => form.1 = .operator && tier.operators.contains form.2) with
      | none => pure left
      | some operator => do
        let right ← erase (operand tier)
        erase (chainFrom tier (.binaryOp left operator right))) := by
  funext ts
  rw [erase, chainFrom]
  refine erase_take? (q := fun t => t.kind = .operator && tier.operators.contains t.lexeme)
    (fun _ => rfl) (fun h => ?_) (fun v h => ?_)
  · change eatOperator? tier.operators ts = none at h
    rw [h]
    rfl
  · change eatOperator? tier.operators ts = some v at h
    rw [h]
    refine erase_bind rfl fun p => ?_
    exact erase_raise _

theorem erase_arguments :
    erase arguments = (do
      match ← take? (· = (.paren, ")")) with
      | some _ => pure []
      | none =>
        match ← look with
        | none => stop (some ⟨.paren, some ")"⟩)
        | some _ => do
          let first ← erase (chain .sum)
          let others ← erase moreArguments
          erase (expect .paren ")")
          pure (first :: others)) := by
  funext ts
  cases ts with
  | nil => rw [erase, arguments]; rfl
  | cons t us =>
    rw [erase, arguments]
    by_cases h : t.is .paren ")" = true
    · rw [if_pos h, bind_of_ok (take?_pos (decide_eq_true (Token.form_eq_iff.mpr h)))]
      rfl
    · rw [if_neg h, bind_of_ok (take?_neg (decide_eq_false (mt Token.form_eq_iff.mp h)))]
      refine Eq.trans ?_ (look_bind _ _).symm
      refine erase_bind rfl fun p => ?_
      refine erase_bind rfl fun p => ?_
      refine erase_bind rfl fun p => ?_
      rfl

theorem erase_moreArguments :
    erase moreArguments = (do
      match ← take? (·.2 = ",") with
      | none => pure []
      | some _ => do
        let argument ← erase (chain .sum)
        let others ← erase moreArguments
        pure (argument :: others)) := by
  funext ts
  rw [erase, moreArguments]
  refine erase_take? (q := fun t => t.lexeme = ",") (fun _ => rfl) (fun h => ?_) (fun v h => ?_)
  · change eatSeparator? ts = none at h
    rw [h]
    rfl
  · change eatSeparator? ts = some v at h
    rw [h]
    refine erase_bind rfl fun p => ?_
    refine erase_bind rfl fun p => ?_
    rfl

/-! ## Statements without a block -/

theorem erase_assignmentOrCall :
    erase assignmentOrCall = (do
      let name ← erase expectIdentifier
      match ← take? (· = (.paren, "(")) with
      | some _ => do
        let args ← erase arguments
        pure (.functionCall name args)
      | none =>
        match ← take? (· = (.operator, "+=")) with
        | some _ => do
          let value ← erase (chain .sum)
          pure (.compoundAssignment name "+=" value)
        | none => do
          erase (expect .operator "=")
          let value ← erase (chain .sum)
          pure (.assignment name value)) := by
  funext ts
  rw [erase, assignmentOrCall]
  refine erase_bind rfl fun p => ?_
  refine erase_take? (is_eq_form .paren "(") (fun h => ?_) (fun v h => ?_)
  · change eat? .paren "(" p.rest = none at h
    simp only [h]
    refine erase_take? (is_eq_form .operator "+=") (fun h' => ?_) (fun v h' => ?_)
    · change eat? .operator "+=" p.rest = none at h'
      simp only [h']
      refine erase_bind rfl fun p => ?_
      refine erase_bind rfl fun p => ?_
      rfl
    · change eat? .operator "+=" p.rest = some v at h'
      simp only [h']
      refine erase_bind rfl fun p => ?_
      rfl
  · change eat? .paren "(" p.rest = some v at h
    simp only [h]
    refine erase_bind rfl fun p => ?_
    rfl

theorem erase_printStatement :
    erase printStatement = (do
      erase (expect .keyword "print")
      erase (expect .paren "(")
      let argument ← erase (chain .sum)
      erase (expect .paren ")")
      pure (.functionCall "print" [argument])) := by
  funext ts
  rw [erase, printStatement]
  refine erase_bind rfl fun p => ?_
  refine erase_bind rfl fun p => ?_
  refine erase_bind rfl fun p => ?_
  refine erase_bind rfl fun p => ?_
  rfl

/-! ## Function headers -/

theorem erase_moreParameters :
    erase moreParameters = (do
      match ← take? (·.2 = ",") with
      | none => pure []
      | some _ => do
        let name ← erase expectIdentifier
        let others ← erase moreParameters
        pure (name :: others)) := by
  funext ts
  rw [erase, moreParameters]
  refine erase_take? (q := fun t => t.lexeme = ",") (fun _ => rfl) (fun h => ?_) (fun v h => ?_)
  · change eatSeparator? ts = none at h
    rw [h]
    rfl
  · change eatSeparator? ts = some v at h
    rw [h]
    refine erase_bind rfl fun p => ?_
    refine erase_bind rfl fun p => ?_
    rfl

theorem erase_parameters :
    erase parameters = (do
      match ← take? (·.1 = .identifier) with
      | none => pure []
      | some name => do
        let others ← erase moreParameters
        pure (name :: others)) := by
  funext ts
  rw [erase, parameters]
  refine erase_take? (q := fun t => t.kind = .identifier) (fun _ => rfl) (fun h => ?_)
    (fun v h => ?_)
  · rw [h]
    rfl
  · rw [h]
    refine erase_bind rfl fun p => ?_
    rfl

theorem erase_functionHeader :
    erase functionHeader = (do
      erase (expect .keyword "fn")
      let name ← erase expectIdentifier
      erase (expect .paren "(")
      let params ← erase parameters
      erase (expect .paren ")")
      pure (name, params)) := by
  funext ts
  rw [erase, functionHeader]
  refine erase_bind rfl fun p => ?_
  refine erase_bind rfl fun p => ?_
  refine erase_bind rfl fun p => ?_
  refine erase_bind rfl fun p => ?_
  refine erase_bind rfl fun p => ?_
  rfl

/-! ## Statements with a block -/

theorem erase_ifStatement :
    erase ifStatement = (do
      erase (expect .keyword "if")
      let condition ← erase (chain .sum)
      let body ← erase block
      pure (.ifStatement condition body)) := by
  funext ts
  rw [erase, ifStatement]
  refine erase_bind rfl fun p => ?_
  refine erase_bind rfl fun p => ?_
  refine erase_bind rfl fun p => ?_
  rfl

theorem erase_functionDecl :
    erase functionDecl = (do
      let (name, params) ← erase functionHeader
      let body ← erase block
      pure (.functionDecl name params body)) := by
  funext ts
  rw [erase, functionDecl]
  refine erase_bind rfl fun p => ?_
  refine erase_bind rfl fun p => ?_
  rfl

theorem erase_block :
    erase block = (do
      erase (expect .brace "\x7b")
      let body ← erase blockBody
      erase (expect .brace "\x7d")
      pure body) := by
  funext ts
  rw [erase, block]
  refine erase_bind rfl fun p => ?_
  refine erase_bind rfl fun p => ?_
  refine erase_bind rfl fun p => ?_
  rfl

theorem erase_blockBody :
    erase blockBody = (do
      match ← look with
      | none => pure []
      | some form =>
        if form = (.brace, "\x7d") then pure []
        else do
          let first ← erase statement
          let others ← erase blockBody
          pure (first :: others)) := by
  funext ts
  rw [look_bind]
  cases ts with
  | nil => rw [erase, blockBody]; rfl
  | cons t us =>
    rw [erase, blockBody]
    simp only [next_cons, Token.form_eq_iff]
    split
    · rfl
    · refine erase_bind rfl fun p => ?_
      refine erase_bind rfl fun p => ?_
      rfl

theorem erase_statement :
    erase statement = (do
      match ← look with
      | none => stop none
      | some form =>
        if form = (.keyword, "fn") then erase functionDecl
        else if form = (.keyword, "if") then erase ifStatement
        else if form = (.keyword, "print") then erase printStatement
        else if form.1 = .identifier then erase assignmentOrCall
        else stop none) := by
  funext ts
  rw [look_bind]
  cases ts with
  | nil => rw [erase, statement]; rfl
  | cons t us =>
    rw [erase, statement]
    simp only [next_cons, Token.form_eq_iff]
    by_cases hf : t.is .keyword "fn" = true
    · rw [if_pos hf, if_pos hf]; rfl
    rw [if_neg hf, if_neg hf]
    by_cases hc : t.is .keyword "if" = true
    · rw [if_pos hc, if_pos hc]; rfl
    rw [if_neg hc, if_neg hc]
    by_cases hp : t.is .keyword "print" = true
    · rw [if_pos hp, if_pos hp]; rfl
    rw [if_neg hp, if_neg hp]
    by_cases hn : t.kind = .identifier
    · rw [if_pos hn, if_pos (show t.form.1 = .identifier from hn)]; rfl
    · rw [if_neg hn, if_neg (show ¬ t.form.1 = .identifier from hn)]; rfl

/-! ## Programs -/

theorem statements_eq :
    statements = (do
      match ← look with
      | none => pure []
      | some _ => do
        let first ← erase statement
        let others ← statements
        pure (first :: others)) := by
  funext ts
  rw [look_bind]
  cases ts with
  | nil => rw [statements, Grammar.statements]; rfl
  | cons t us =>
    rw [statements, Grammar.statements]
    show _ = (erase statement >>= _) (t :: us)
    -- The loop over statements has no bound to erase, so that its two calls are opened here.
    cases hs : statement (t :: us) with
    | error f =>
      have h : erase statement (t :: us) = .error f.expected f.rest := by rw [erase, hs]; rfl
      rw [bind_of_error h]
      rfl
    | ok p =>
      have h : erase statement (t :: us) = .ok p.value p.rest := by rw [erase, hs]; rfl
      rw [bind_of_ok h]
      cases ho : Grammar.statements p.rest with
      | error f =>
        have h : statements p.rest = .error f.expected f.rest := by rw [statements, ho]
        rw [bind_of_error h]
        simp only [bind, Except.bind, ho]
      | ok trees =>
        have h : statements p.rest = .ok trees [] := by rw [statements, ho]
        rw [bind_of_ok h]
        simp only [bind, Except.bind, ho]
        rfl

end Rule
end Grammar
end Pocl
