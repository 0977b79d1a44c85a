import Pocl.Proofs.Grammar.Acceptance
import Pocl.Proofs.Grammar.Bystander

/-!
# What an error says

An error is worded as the refusal of a token, or as the requirement of another one. The wording
is truthful: every token that is required can stand where the error stands. It is also complete:
an error names no required token exactly where an operand or a statement could begin. At the end of
the input the closing parenthesis of an empty call is required rather than its first argument.

## Main definitions

* `closedBody`: the statements of a block with the brace that closes it
* `errorIndex? ts`: the index at which parsing stops
* `ParseError.Classified e P`: the error names no required token exactly where `P` holds
* `Truthful ts e i`: what the error `e` says of the token list `ts` at the index `i`

## Main results

* `firm_expressions`, `firm_statement`, `firm_closedBody`: the rules are firm
* `refuses_program`: what the error of a program rules out
* `exists_truthful_of_parse_error`: every error is truthful where parsing stops
-/

namespace Pocl

namespace Grammar

namespace Rule

variable {ts us rest : List Token} {t u : Token}

/-! ## Expressions -/

/-- No operand begins here. -/
theorem primary_of_next (h : ∀ form, next ts = some form → ¬ OperandStart form) :
    erase primary ts = .error none ts := by
  have left {p : TokenKind × String → Bool} (hp : ∀ form, p form = true → OperandStart form) :
      take? p ts = .ok none ts :=
    take?_of_next fun form hform => Bool.eq_false_iff.mpr fun heq => h form hform (hp form heq)
  rw [erase_primary]
  refine (bind_of_ok (left fun form hf => .inl (of_decide_eq_true hf))).trans ?_
  refine (bind_of_ok (left fun form hf => .inr (.inl (of_decide_eq_true hf)))).trans ?_
  exact bind_of_ok (left fun form hf => .inr (.inr (of_decide_eq_true hf)))

section Expressions

variable (ih : ∀ us : List Token, us.length < ts.length → OnExpressions (fun _ r => Firm r) us)
include ih

theorem firm_primary : Firm (erase primary) ts := by
  have hs := (stepwise_settled.onExpressions ts).primary
  cases ts with
  | nil =>
    apply Firm.of_error (primary_of_next (by simp)) hs
    rintro u (rfl | rfl) us
    · exact ⟨_, _, primary_of_next (by simp [OperandStart, Token.form, close])⟩
    · exact ⟨_, _, primary_of_next (by simp [OperandStart, Token.form, printWord])⟩
  | cons t us =>
    by_cases hl : t.form.1 = .literal
    · exact .taken (fun vs => congrFun erase_primary _)
        (fun vs => take?_pos (decide_eq_true hl)) hs (firm_pure _ _)
    have left : ∀ vs, take? (·.1 = .literal) (t :: vs) = .ok none (t :: vs) := fun vs =>
      take?_neg (decide_eq_false hl)
    by_cases hi : t.form.1 = .identifier
    · refine .taken (fun vs => (congrFun erase_primary _).trans (bind_of_ok (left vs)))
        (fun vs => take?_pos (decide_eq_true hi)) hs ?_
      apply firm_take?_bind
      · rintro u (rfl | rfl | rfl) <;> rfl
      · intro _ vs hvs
        exact (ih vs (Nat.lt_succ_of_lt hvs)).arguments.bind fun _ _ _ => firm_pure _ _
      · exact firm_pure _ _
    have left' : ∀ vs, take? (·.1 = .identifier) (t :: vs) = .ok none (t :: vs) := fun vs =>
      take?_neg (decide_eq_false hi)
    by_cases ho : t.form = (.paren, "(")
    · refine .taken (fun vs => (congrFun erase_primary _).trans
        ((bind_of_ok (left vs)).trans (bind_of_ok (left' vs))))
        (fun vs => take?_pos (decide_eq_true ho)) hs ?_
      apply ((ih us (Nat.lt_succ_self _)).chain .sum).bind
      intro tree rest _
      exact (firm_expect (by decide) (by decide) _).bind fun _ _ _ => firm_pure _ _
    · refine Firm.of_error (primary_of_next ?_) hs fun u hu => absurd hu not_excludes_none_cons
      intro form hform
      obtain rfl : t.form = form := Option.some.inj hform
      exact not_or.mpr ⟨hl, not_or.mpr ⟨hi, ho⟩⟩

theorem firm_chainFrom (tier : Tier) (left : Node) : Firm (erase (chainFrom tier left)) ts := by
  rw [erase_chainFrom]
  apply firm_take?_bind
  · rintro u (rfl | rfl | rfl) <;> rfl
  · intro operator us hus
    apply ((ih us hus).operand tier).erase_bind
    intro right vs hvs
    exact (ih vs (Nat.lt_trans hvs hus)).chainFrom tier _
  · exact firm_pure _ _

theorem firm_chain {tier : Tier} (h : Firm (erase (operand tier)) ts) :
    Firm (erase (chain tier)) ts := by
  rw [erase_chain]
  apply h.erase_bind
  intro left us hus
  exact (ih us hus).chainFrom tier left

/-- The tighter tier first: the operands of sums are chains of products. -/
theorem firm_operand (tier : Tier) : Firm (erase (operand tier)) ts := by
  have hproduct : Firm (erase (operand .product)) ts := by
    rw [erase_operand_product]
    exact firm_primary ih
  cases tier with
  | product => exact hproduct
  | sum =>
    rw [erase_operand_sum]
    exact firm_chain ih hproduct

theorem firm_moreArguments : Firm (erase moreArguments) ts := by
  rw [erase_moreArguments]
  apply firm_take?_bind
  · rintro u (rfl | rfl | rfl) <;> rfl
  · intro _ us hus
    apply ((ih us hus).chain .sum).erase_bind
    intro argument vs hvs
    exact (ih vs (Nat.lt_trans hvs hus)).moreArguments.bind fun _ _ _ => firm_pure _ _
  · exact firm_pure _ _

theorem firm_arguments : Firm (erase arguments) ts := by
  have hs := (stepwise_settled.onExpressions ts).arguments
  cases ts with
  | nil =>
    -- The arguments may close here, and that is the one requirement that excludes no number.
    apply Firm.of_error (e := some ⟨.paren, some ")"⟩) _ hs
    · rintro u ⟨-, hclose⟩
      exact absurd rfl hclose
    · rw [erase, arguments]
      rfl
  | cons t us =>
    by_cases hc : t.form = (.paren, ")")
    · exact .taken (fun vs => congrFun erase_arguments _)
        (fun vs => take?_pos (decide_eq_true hc)) hs (firm_pure _ _)
    have opened : ∀ t vs, t.form ≠ (.paren, ")") → erase arguments (t :: vs) = (do
        let first ← erase (chain .sum)
        let others ← erase moreArguments
        erase (expect .paren ")")
        pure (first :: others)) (t :: vs) := by
      intro t vs hc
      rw [erase_arguments]
      exact (bind_of_ok (take?_neg (decide_eq_false hc))).trans (look_bind _ _)
    apply Firm.opened (fun vs => opened t vs hc) _ (fun v rest => length_rest_lt_of_erase) hs
    · -- Nothing has been taken yet, so that the first argument is not left to the induction.
      apply (firm_chain ih (firm_operand ih .sum)).erase_bind
      intro first vs hvs
      apply (ih vs hvs).moreArguments.bind
      intro others ws _
      exact (firm_expect (by decide) (by decide) _).bind fun _ _ _ => firm_pure _ _
    · rintro u (rfl | rfl) vs
      · exact opened _ vs (by decide)
      · exact opened _ vs (by decide)

end Expressions

theorem firm_expressions (ts : List Token) : OnExpressions (fun _ r => Firm r) ts :=
  have ih : ∀ us : List Token, us.length < ts.length → OnExpressions (fun _ r => Firm r) us :=
    fun us _ => firm_expressions us
  { primary := firm_primary ih
    operand := firm_operand ih
    chain := fun tier => firm_chain ih (firm_operand ih tier)
    chainFrom := firm_chainFrom ih
    arguments := firm_arguments ih
    moreArguments := firm_moreArguments ih }
termination_by ts.length

/-! ## Function headers -/

theorem firm_moreParameters (ts : List Token) : Firm (erase moreParameters) ts := by
  rw [erase_moreParameters]
  apply firm_take?_bind
  · rintro u (rfl | rfl | rfl) <;> rfl
  · intro _ us hus
    apply (firm_expectIdentifier us).erase_bind
    intro name vs hvs
    have hlt := Nat.lt_trans hvs hus
    exact (firm_moreParameters vs).bind fun _ _ _ => firm_pure _ _
  · exact firm_pure _ _
termination_by ts.length
decreasing_by exact hlt

theorem firm_parameters (ts : List Token) : Firm (erase parameters) ts := by
  rw [erase_parameters]
  apply firm_take?_bind
  · rintro u (rfl | rfl | rfl) <;> rfl
  · intro name us _
    exact (firm_moreParameters us).bind fun _ _ _ => firm_pure _ _
  · exact firm_pure _ _

/-! ## Statements without a block -/

theorem firm_statement_of_identifier (h : t.kind = .identifier) (us : List Token) :
    Firm (erase statement) (t :: us) := by
  refine .taken (fun vs => statement_of_identifier h |>.trans (congrFun erase_assignmentOrCall _))
    (fun vs => expectIdentifier_cons h) (stepwise_settled.onStatements _).statement ?_
  apply firm_take?_bind
  · rintro u (rfl | rfl | rfl) <;> rfl
  · intro _ vs _
    exact (firm_expressions vs).arguments.bind fun _ _ _ => firm_pure _ _
  apply firm_take?_bind
  · rintro u (rfl | rfl | rfl) <;> rfl
  · intro _ vs _
    exact ((firm_expressions vs).chain .sum).bind fun _ _ _ => firm_pure _ _
  apply (firm_expect (by decide) (by decide) _).bind
  intro _ vs _
  exact ((firm_expressions vs).chain .sum).bind fun _ _ _ => firm_pure _ _

theorem firm_statement_of_print (h : t.form = (.keyword, "print")) (us : List Token) :
    Firm (erase statement) (t :: us) := by
  refine .taken (fun vs => statement_of_print h |>.trans (congrFun erase_printStatement _))
    (fun vs => expect_cons h) (stepwise_settled.onStatements _).statement ?_
  apply (firm_expect (by decide) (by decide) _).bind
  intro _ vs _
  apply ((firm_expressions vs).chain .sum).bind
  intro argument ws _
  exact (firm_expect (by decide) (by decide) _).bind fun _ _ _ => firm_pure _ _

/-! ## Blocks -/

/-- The statements of a block with the brace that closes it. -/
def closedBody : Rule (List Node) := do
  let body ← erase blockBody
  erase (expect .brace "\x7d")
  pure body

theorem bind_congr_of_eq {r' : Rule α} (h : r ts = r' us) : (r >>= k) ts = (r' >>= k) us := by
  show EStateM.bind r k ts = EStateM.bind r' k us
  rw [EStateM.bind, EStateM.bind, h]

theorem block_eq : erase block = erase (expect .brace "\x7b") >>= fun _ => closedBody :=
  erase_block

theorem closedBody_nil : closedBody [] = .error (some ⟨.brace, some "\x7d"⟩) [] := by
  have hbody : erase blockBody [] = .ok [] [] := by
    rw [erase, blockBody]
    rfl
  exact bind_of_ok hbody

theorem closedBody_close (h : t.form = (.brace, "\x7d")) : closedBody (t :: us) = .ok [] us := by
  have hbody : erase blockBody (t :: us) = .ok [] (t :: us) := by
    rw [erase_blockBody]
    refine (look_bind _ _).trans ?_
    rw [next_cons, h]
    rfl
  exact (bind_of_ok hbody).trans (bind_of_ok (expect_cons h))

theorem closedBody_open (h : t.form ≠ (.brace, "\x7d")) :
    closedBody (t :: us) = (do
      let first ← erase statement
      let others ← closedBody
      pure (first :: others)) (t :: us) := by
  have hbody : erase blockBody (t :: us) = (do
      let first ← erase statement
      let others ← erase blockBody
      pure (first :: others)) (t :: us) := by
    refine (congrFun erase_blockBody _).trans ((look_bind _ _).trans ?_)
    rw [next_cons]
    simp only [if_neg h]
  refine (bind_congr_of_eq hbody).trans ?_
  simp only [bind_assoc, pure_bind, closedBody]

theorem settled_closedBody (ts : List Token) : Settled _ closedBody ts :=
  (stepwise_settled.onStatements ts).blockBody.bind fun _ _ _ =>
    (stepwise_settled.expect _ _ _).bind fun _ _ _ => stepwise_settled.pure _ _

theorem length_rest_closedBody_lt {body : List Node} (h : closedBody ts = .ok body rest) :
    rest.length < ts.length := by
  obtain ⟨trees, us, hbody, h⟩ := bind_eq_ok_iff.mp h
  obtain ⟨_, vs, hclose, h⟩ := bind_eq_ok_iff.mp h
  cases h
  have hle : us.length < ts.length + 1 := length_rest_lt_of_erase hbody
  have hlt : rest.length < us.length := length_rest_lt_of_erase hclose
  omega

theorem firm_block (ih : ∀ us : List Token, us.length < ts.length → Firm closedBody us) :
    Firm (erase block) ts := by
  rw [block_eq]
  apply (firm_expect (by decide) (by decide) _).erase_bind
  intro _ us hus
  exact ih us hus

/-! ## Statements with a block -/

theorem functionDecl_eq : erase functionDecl = (do
    erase (expect .keyword "fn")
    let name ← erase expectIdentifier
    erase (expect .paren "(")
    let params ← erase parameters
    erase (expect .paren ")")
    let body ← erase block
    pure (.functionDecl name params body)) := by
  rw [erase_functionDecl, erase_functionHeader]
  simp only [bind_assoc, pure_bind]

/-- No statement begins here. -/
theorem statement_of_other
    (hk : t.form ∉ [(.keyword, "fn"), (.keyword, "if"), (.keyword, "print")])
    (hi : t.kind ≠ .identifier) : erase statement (t :: us) = .error none (t :: us) := by
  simp only [List.mem_cons, List.not_mem_nil, or_false, not_or] at hk
  have hi : ¬ t.form.1 = .identifier := hi
  rw [statement_cons, if_neg hk.1, if_neg hk.2.1, if_neg hk.2.2, if_neg hi]
  rfl

section Statements

variable (hblock : ∀ vs : List Token, vs.length < us.length → Firm (erase block) vs)
include hblock

theorem firm_statement_of_if (h : t.form = (.keyword, "if")) :
    Firm (erase statement) (t :: us) := by
  refine .taken (fun vs => statement_of_if h |>.trans (congrFun erase_ifStatement _))
    (fun vs => expect_cons h) (stepwise_settled.onStatements _).statement ?_
  apply ((firm_expressions us).chain .sum).erase_bind
  intro condition vs hvs
  exact (hblock vs hvs).bind fun _ _ _ => firm_pure _ _

theorem firm_statement_of_fn (h : t.form = (.keyword, "fn")) :
    Firm (erase statement) (t :: us) := by
  refine .taken (fun vs => statement_of_fn h |>.trans (congrFun functionDecl_eq _))
    (fun vs => expect_cons h) (stepwise_settled.onStatements _).statement ?_
  apply (firm_expectIdentifier us).erase_bind
  intro name vs hvs
  apply (firm_expect (by decide) (by decide) _).erase_bind
  intro _ ws hws
  apply (firm_parameters ws).bind
  intro params xs hxs
  have hxs : xs.length < ws.length + 1 := length_rest_lt_of_erase hxs
  apply (firm_expect (by decide) (by decide) _).erase_bind
  intro _ rest hrest
  exact (hblock rest (by omega)).bind fun _ _ _ => firm_pure _ _

theorem firm_statement (t : Token) : Firm (erase statement) (t :: us) := by
  by_cases hf : t.form = (.keyword, "fn")
  · exact firm_statement_of_fn hblock hf
  by_cases hc : t.form = (.keyword, "if")
  · exact firm_statement_of_if hblock hc
  by_cases hp : t.form = (.keyword, "print")
  · exact firm_statement_of_print hp us
  by_cases hi : t.kind = .identifier
  · exact firm_statement_of_identifier hi us
  · refine .of_error (statement_of_other ?_ hi) (stepwise_settled.onStatements _).statement
      fun u hu => absurd hu not_excludes_none_cons
    simp [hf, hc, hp]

end Statements

theorem firm_closedBody (ts : List Token) : Firm closedBody ts := by
  cases ts with
  | nil =>
    apply Firm.of_error closedBody_nil (settled_closedBody _)
    rintro u ⟨rfl, -⟩ us
    rw [Stops, closedBody_open (by decide)]
    exact Stops.bind ⟨_, _, statement_of_other (by decide) (by decide)⟩
  | cons t us =>
    by_cases hc : t.form = (.brace, "\x7d")
    · exact .taken (fun vs => by rw [bind_pure]) (fun vs => closedBody_close hc)
        (settled_closedBody _) (firm_pure [] us)
    apply Firm.opened (fun vs => closedBody_open hc) _ (fun v rest => length_rest_closedBody_lt)
      (settled_closedBody _)
    · have hblock : ∀ vs : List Token, vs.length < us.length → Firm (erase block) vs :=
        fun vs hvs => firm_block fun ws hws => firm_closedBody ws
      apply (firm_statement hblock t).erase_bind
      intro first vs hvs
      exact (firm_closedBody vs).bind fun _ _ _ => firm_pure _ _
    · rintro u (rfl | rfl) vs
      · exact closedBody_open (by decide)
      · exact closedBody_open (by decide)
termination_by ts.length
decreasing_by
  · exact Nat.lt_succ_of_lt (Nat.lt_of_lt_of_le hws (Nat.le_of_lt hvs))
  · exact hvs

/-! ## Programs -/

theorem statements_cons : Rule.statements (t :: us) = (do
    let first ← erase statement
    let others ← Rule.statements
    pure (first :: others)) (t :: us) :=
  (congrFun statements_eq _).trans (look_bind _ _)

theorem Refuses.map {α β : Type} {r : Rule α} (h : Refuses r ts) (f : α → β) :
    Refuses (r >>= fun v => pure (f v)) ts := by
  intro used e rest hts herror u hu us
  rcases bind_eq_error_iff.mp herror with hr | ⟨v, vs, -, hf⟩
  · exact (h used e rest hts hr u hu us).bind
  · cases hf

theorem refuses_program (ts : List Token) : Refuses Rule.statements ts := by
  cases ts with
  | nil =>
    intro used e rest _ herror
    rw [Rule.statements, Grammar.statements] at herror
    cases herror
  | cons t us =>
    have hstatement : Firm (erase statement) (t :: us) :=
      firm_statement (fun vs _ => firm_block fun ws _ => firm_closedBody ws) t
    have hrefuses := hstatement.refuses_bind fun first rest hrest =>
      have hlt : rest.length < (t :: us).length := length_rest_lt_of_erase hrest
      ⟨(stepwise_settled.statements rest).bind fun _ _ _ => stepwise_settled.pure _ _,
        (refuses_program rest).map (first :: ·)⟩
    intro used e rest hts herror u hu vs
    rw [statements_cons] at herror
    have hstops := hrefuses used e rest hts herror u hu vs
    cases used with
    | nil => rwa [Stops, List.nil_append, statements_cons]
    | cons t' used => rwa [Stops, List.cons_append, statements_cons]
termination_by ts.length
decreasing_by exact hlt

end Rule

end Grammar

/-! ## What an error says -/

open Grammar Rule

variable {ts us c : List Token} {t u : Token} {e : ParseError} {i m n : Nat} {P : Prop}

/-- The index at which parsing stops: that of the offending token, or the length of the list where
the input ends too early. -/
def errorIndex? (ts : List Token) : Option Nat :=
  match Grammar.statements ts with
  | .ok _ => none
  | .error f => some (ts.length - f.rest.length)

/-- The error says that an operand or a statement was due exactly where `P` holds, and names a
required token otherwise. -/
def ParseError.Classified (e : ParseError) (P : Prop) : Prop :=
  (e = .unexpected e.found ↔ P) ∧ ((∃ x, e = .mismatch x e.found) ↔ ¬ P)

/-- What the error `e` says of the token list `ts`, where parsing stops at the index `i`. -/
structure Truthful (ts : List Token) (e : ParseError) (i : Nat) : Prop where
  stops : errorIndex? ts = some i
  bounded : i ≤ ts.length
  found : ts[i]? = e.found
  required : ∀ x t, e = .mismatch x e.found → x.Admits t → Viable (ts.take i ++ [t])
  atToken : ∀ m n, e.found ≠ none →
    e.Classified (Viable (ts.take i ++ [⟨.literal, "1", m⟩]) ∨
      Viable (ts.take i ++ [⟨.keyword, "print", n⟩]))
  atEnd : ∀ m n, e.found = none →
    e.Classified (Viable (ts.take i ++ [⟨.literal, "1", m⟩]) ∧
      ¬ Viable (ts.take i ++ [⟨.paren, ")", n⟩]))

theorem ParseError.classified_unexpected {found : Option Token} (h : P) :
    (ParseError.unexpected found).Classified P :=
  ⟨iff_of_true rfl h, iff_of_false (by rintro ⟨x, hx⟩; cases hx) (not_not_intro h)⟩

theorem ParseError.classified_mismatch {x : Expected} {found : Option Token} (h : ¬ P) :
    (ParseError.mismatch x found).Classified P :=
  ⟨iff_of_false (by intro hx; cases hx) h, iff_of_true ⟨x, rfl⟩ h⟩

theorem viable_of_accepted (h : Accepted ts) : Viable ts :=
  ⟨[], (List.append_nil ts).symm ▸ h⟩

/-- Where a token stands does not matter to what may follow it. -/
theorem Viable.alike (h : Viable ts) (hu : Alike us ts) : Viable us := by
  obtain ⟨vs, p, hp⟩ := h
  have happend : Alike (us ++ vs) (ts ++ vs) :=
    Alike.append_iff.mpr ⟨us, vs, rfl, hu, .refl vs⟩
  exact ⟨vs, p, parse_of_derives (Clause.Spelled.alike (derives_of_parse hp) happend)⟩

theorem viable_append_iff (h : t.form = u.form) : Viable (c ++ [t]) ↔ Viable (c ++ [u]) := by
  have halike {t u : Token} (h : t.form = u.form) : Alike (c ++ [t]) (c ++ [u]) :=
    Alike.append_iff.mpr ⟨c, [t], rfl, .refl c, Alike.singleton_iff.mpr ⟨t, rfl, h⟩⟩
  exact ⟨fun hv => hv.alike (halike h.symm), fun hv => hv.alike (halike h)⟩

/-- Where parsing stops whatever follows a token, the token is impossible. -/
theorem not_viable_of_stops (h : ∀ us, Stops Rule.statements (c ++ u :: us)) :
    ¬ Viable (c ++ [u]) := by
  rintro ⟨us, haccepted⟩
  obtain ⟨e, rest, hr⟩ := h us
  refine not_accepted_of_parse_error (parse_of_statements_error hr) ?_
  rwa [List.append_assoc] at haccepted

theorem viable_of_spelled
    (h : ∃ vs trees, (Clause.statements trees).Spelled (c ++ t :: vs)) : Viable (c ++ [t]) := by
  obtain ⟨vs, trees, hs⟩ := h
  exact Viable.of_prefix (viable_of_accepted (accepted_of_spelled hs)) ⟨vs, by simp⟩

section Failure

variable {x : Option Expected} {rest : List Token}

/-- The tokens `c` are spelled so far, and `x` is due where `rest` is left. -/
structure DueAfter (x : Option Expected) (c rest : List Token) : Prop where
  prompts : Prompts (fun us => ∃ trees, (Clause.statements trees).Spelled us) x c
  refused : ∀ u, Excludes x rest u → ¬ Viable (c ++ [u])

theorem dueAfter_of_error (hr : Rule.statements ts = .error x rest) :
    ∃ c, c ++ rest = ts ∧ DueAfter x c rest := by
  have ht := takes_program ts
  rw [Takes, Covers, hr] at ht
  obtain ⟨c, hts, hprompts⟩ := ht
  exact ⟨c, hts, hprompts, fun u hu =>
    not_viable_of_stops fun us => refuses_program ts c x rest hts hr u hu us⟩

theorem DueAfter.required {x : Expected} (h : DueAfter (some x) c rest) (ht : x.Admits t) :
    Viable (c ++ [t]) :=
  viable_of_spelled (h.prompts t ht)

theorem DueAfter.one_or_print (h : DueAfter none c rest) :
    Viable (c ++ [one]) ∨ Viable (c ++ [printWord]) :=
  h.prompts.imp viable_of_spelled viable_of_spelled

/-- At a token the error is unexpected exactly where a number or `print` could stand. -/
theorem DueAfter.classified_cons (h : DueAfter x c (t :: us)) :
    (Failure.error ⟨x, t :: us⟩).Classified
      (Viable (c ++ [one]) ∨ Viable (c ++ [printWord])) := by
  cases x with
  | none => exact ParseError.classified_unexpected h.one_or_print
  | some x =>
    exact ParseError.classified_mismatch
      (not_or.mpr ⟨h.refused one (.inl rfl), h.refused printWord (.inr rfl)⟩)

/-- At the end of the input the error is unexpected exactly where a number could stand and a
closing parenthesis could not. -/
theorem DueAfter.classified_nil (h : DueAfter x c []) :
    (Failure.error ⟨x, []⟩).Classified (Viable (c ++ [one]) ∧ ¬ Viable (c ++ [close])) := by
  cases x with
  | none =>
    have hone := h.one_or_print.resolve_right (h.refused printWord (.inr rfl))
    exact ParseError.classified_unexpected ⟨hone, h.refused close (.inl rfl)⟩
  | some x =>
    apply ParseError.classified_mismatch
    rintro ⟨hone, hclose⟩
    -- Only the closing parenthesis of a call may be due where a number could stand.
    by_cases hx : x = ⟨.paren, some ")"⟩
    · subst hx
      exact hclose (h.required ⟨rfl, fun lexeme hl => Option.some.inj hl⟩)
    · exact h.refused one ⟨rfl, hx⟩ hone

end Failure

theorem errorIndex?_of_error {x : Option Expected} {rest : List Token}
    (h : Rule.statements (c ++ rest) = .error x rest) :
    errorIndex? (c ++ rest) = some c.length := by
  rw [Rule.statements] at h
  rw [errorIndex?]
  cases hs : Grammar.statements (c ++ rest) with
  | ok trees => rw [hs] at h; cases h
  | error f =>
    rw [hs] at h
    cases h
    simp

/-- Parsing stops after tokens that can be completed, and reports what is left of the list. -/
theorem exists_stop_of_parse_error (h : parse ts = .error e) :
    ∃ x c rest, c ++ rest = ts ∧ Rule.statements ts = .error x rest ∧
      e = Failure.error ⟨x, rest⟩ ∧ errorIndex? ts = some c.length ∧ Viable c := by
  obtain ⟨x, rest, hr, rfl⟩ := parse_eq_error_iff_statements.mp h
  obtain ⟨c, rfl, hdue⟩ := dueAfter_of_error hr
  exact ⟨x, c, rest, rfl, hr, rfl, errorIndex?_of_error hr, viable_of_prompts hdue.prompts⟩

/-- **Errors are truthful.** What an error requires can stand where parsing stops. At a token the
error is unexpected exactly where a number or `print` could stand in its place, and at the end of
the input exactly where a number could follow and a closing parenthesis could not. -/
theorem exists_truthful_of_parse_error (ts : List Token) (e : ParseError)
    (h : parse ts = .error e) : ∃ i, Truthful ts e i := by
  obtain ⟨x, rest, hr, -⟩ := exists_of_parse_error h
  obtain rfl := Except.error.inj ((parse_of_statements_error hr).symm.trans h)
  obtain ⟨c, rfl, hdue⟩ := dueAfter_of_error hr
  have hfound : (Failure.error ⟨x, rest⟩).found = rest.head? := Failure.found_error _
  have htake : (c ++ rest).take c.length = c := List.take_left
  have hone (m : Nat) : Viable (c ++ [⟨.literal, "1", m⟩]) ↔ Viable (c ++ [one]) :=
    viable_append_iff rfl
  have hprint (n : Nat) : Viable (c ++ [⟨.keyword, "print", n⟩]) ↔ Viable (c ++ [printWord]) :=
    viable_append_iff rfl
  have hclose (n : Nat) : Viable (c ++ [⟨.paren, ")", n⟩]) ↔ Viable (c ++ [close]) :=
    viable_append_iff rfl
  refine ⟨c.length, errorIndex?_of_error hr, by simp, ?_, ?_, ?_, ?_⟩
  · rw [hfound]
    cases rest <;> simp
  · intro x' t hx ht
    rw [htake]
    cases x with
    | none => cases hx
    | some x =>
      cases hx
      exact hdue.required ht
  · intro m n hne
    rw [htake, hone, hprint]
    cases rest with
    | nil => exact absurd hfound hne
    | cons t us => exact hdue.classified_cons
  · intro m n hnone
    rw [htake, hone, hclose]
    cases rest with
    | nil => exact hdue.classified_nil
    | cons t us => cases hnone.symm.trans hfound

/-- `f(` requires the closing parenthesis although a number could follow, and `x = )` is refused
at the parenthesis. -/
theorem truthful_of_open_call :
    let f : Token := ⟨.identifier, "f", 1⟩
    let l : Token := ⟨.paren, "(", 2⟩
    let o : Token := ⟨.operator, "=", 3⟩
    let r : Token := ⟨.paren, ")", 5⟩
    (parse [f, l] = .error (.mismatch ⟨.paren, some ")"⟩ none) ∧
      ∃ i, Truthful [f, l] (.mismatch ⟨.paren, some ")"⟩ none) i) ∧
    parse [f, o, r] = .error (.unexpected (some r)) ∧
      ∃ i, Truthful [f, o, r] (.unexpected (some r)) i := by
  intro f l o r
  have h : parse [f, l] = .error (.mismatch ⟨.paren, some ")"⟩ none) := by cbv
  have h' : parse [f, o, r] = .error (.unexpected (some r)) := by cbv
  exact ⟨⟨h, exists_truthful_of_parse_error _ _ h⟩, h', exists_truthful_of_parse_error _ _ h'⟩

end Pocl
