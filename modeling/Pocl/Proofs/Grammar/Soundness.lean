import Pocl.Proofs.Grammar.Derivation

/-!
# What a rule has taken

A rule that ends with a value has taken tokens that spell it. A rule that stops has taken the
beginning of something it could still have read: what it says was due goes on with that beginning,
and the result can be completed. Both are shown in one pass over the rules, which follows each rule
step by step and keeps the tokens taken so far.

## Main definitions

* `Covers r ts Q V`: the tokens that `r` takes satisfy `Q` with its value, or `V` with its
  expectation
* `Prompts L e us`: what `e` says is due goes on with `us` to a member of `L`
* `Takes r ts Q`: the tokens that `r` takes satisfy `Q`, or are prompted to
* `TakesAfter pre r ts Q`: the same for the tokens that `r` takes with the tokens `pre` before them

## Main results

* `takes_expressions`, `takes_statements`, `takes_program`: what every rule has taken
* `derives_of_parse`: what the parser accepts, the grammar derives
-/

namespace Pocl

/-- The tokens that an expectation asks for. -/
def Expected.Admits (x : Expected) (t : Token) : Prop :=
  t.kind = x.kind ∧ ∀ lexeme, x.lexeme = some lexeme → t.lexeme = lexeme

theorem Expected.Admits.form_eq {kind : TokenKind} {lexeme : String} {t : Token}
    (h : Expected.Admits ⟨kind, some lexeme⟩ t) : t.form = (kind, lexeme) :=
  Prod.ext h.1 (h.2 lexeme rfl)

namespace Grammar

open Rule

variable {α β : Type} {ts : List Token}

/-! ## Tokens taken -/

namespace Rule

/-- The tokens that `r` takes satisfy `Q` with its value, or `V` with its expectation. -/
def Covers (r : Rule α) (ts : List Token) (Q : α → List Token → Prop)
    (V : Option Expected → List Token → Prop) : Prop :=
  match r ts with
  | .ok v rest => ∃ used, used ++ rest = ts ∧ Q v used
  | .error e rest => ∃ used, used ++ rest = ts ∧ V e used

variable {Q : β → List Token → Prop} {V : Option Expected → List Token → Prop}

theorem covers_pure {v : β} (h : Q v []) : Covers (pure v) ts Q V :=
  ⟨[], rfl, h⟩

theorem covers_stop {e : Option Expected} (h : V e []) : Covers (stop e) ts Q V :=
  ⟨[], rfl, h⟩

theorem Covers.bind {r : Rule α} {k : α → Rule β} {Q₁ : α → List Token → Prop}
    {V₁ : Option Expected → List Token → Prop} (hr : Covers r ts Q₁ V₁)
    (hstop : ∀ e us, V₁ e us → V e us)
    (hk : ∀ v used rest, r ts = .ok v rest → Q₁ v used →
      Covers (k v) rest (fun w us => Q w (used ++ us)) (fun e us => V e (used ++ us))) :
    Covers (r >>= k) ts Q V := by
  cases h : r ts with
  | error e rest =>
    rw [Covers, h] at hr
    obtain ⟨used, hts, hV⟩ := hr
    rw [Covers, bind_of_error h]
    exact ⟨used, hts, hstop e used hV⟩
  | ok v rest =>
    rw [Covers, h] at hr
    obtain ⟨used, rfl, hQ⟩ := hr
    have hk := hk v used rest h hQ
    rw [Covers] at hk ⊢
    rw [bind_of_ok h]
    cases hv : k v rest with
    | ok w rest' | error e rest' =>
      rw [hv] at hk
      obtain ⟨us, rfl, hus⟩ := hk
      exact ⟨used ++ us, List.append_assoc _ _ _, hus⟩

theorem covers_look {k : Option (TokenKind × String) → Rule β} (h : Covers (k (next ts)) ts Q V) :
    Covers (look >>= k) ts Q V := by
  rwa [Covers, look_bind]

/-- Taking a first token, or leaving it. -/
theorem covers_take? {p : TokenKind × String → Bool} {k : Option String → Rule β}
    (hsome : ∀ t us, ts = t :: us → p t.form = true →
      Covers (k (some t.lexeme)) us (fun w us => Q w (t :: us)) (fun e us => V e (t :: us)))
    (hnone : Covers (k none) ts Q V) : Covers (take? p >>= k) ts Q V := by
  cases ts with
  | nil => exact hnone
  | cons t us =>
    by_cases h : p t.form = true
    · have hs := hsome t us rfl h
      rw [Covers] at hs ⊢
      rw [bind_of_ok (take?_pos h)]
      cases hk : k (some t.lexeme) us with
      | ok w rest | error e rest =>
        rw [hk] at hs
        obtain ⟨used, rfl, hused⟩ := hs
        exact ⟨t :: used, rfl, hused⟩
    · rw [Covers, bind_of_ok (take?_neg (Bool.not_eq_true _ ▸ h))]
      exact hnone

theorem covers_expect {kind : TokenKind} {lexeme : String} {k : Unit → Rule β}
    (hstop : V (some ⟨kind, some lexeme⟩) [])
    (hk : ∀ t us, ts = t :: us → t.form = (kind, lexeme) →
      Covers (k ()) us (fun w us => Q w (t :: us)) (fun e us => V e (t :: us))) :
    Covers (erase (expect kind lexeme) >>= k) ts Q V := by
  rw [erase_expect, bind_assoc]
  refine covers_take? (fun t us hts ht => ?_) ?_
  · rw [pure_bind]
    exact hk t us hts (of_decide_eq_true ht)
  · exact ⟨[], rfl, hstop⟩

theorem covers_expectIdentifier {k : String → Rule β} (hstop : V (some ⟨.identifier, none⟩) [])
    (hk : ∀ t us, ts = t :: us → t.kind = .identifier →
      Covers (k t.lexeme) us (fun w us => Q w (t :: us)) (fun e us => V e (t :: us))) :
    Covers (erase expectIdentifier >>= k) ts Q V := by
  rw [erase_expectIdentifier, bind_assoc]
  refine covers_take? (fun t us hts ht => ?_) ?_
  · rw [pure_bind]
    exact hk t us hts (of_decide_eq_true ht)
  · exact ⟨[], rfl, hstop⟩

end Rule

/-! ## Sample tokens

Where something is due, these tokens complete it. Their places do not matter. -/

/-- A literal token, which is an expression. -/
def one : Token := ⟨.literal, "1", 0⟩

/-- A reserved word that begins a statement. -/
def printWord : Token := ⟨.keyword, "print", 0⟩

/-- A name. -/
def word : Token := ⟨.identifier, "f", 0⟩

/-- An opening parenthesis. -/
def openParen : Token := ⟨.paren, "(", 0⟩

/-- A closing parenthesis. -/
def close : Token := ⟨.paren, ")", 0⟩

/-- The brace that opens a block. -/
def openBrace : Token := ⟨.brace, "\x7b", 0⟩

/-- The brace that closes a block. -/
def closeBrace : Token := ⟨.brace, "\x7d", 0⟩

/-- An operand alone is a chain. -/
theorem Phrase.Spelled.toChain {tier : Tier} {tree : Node}
    (h : (Phrase.operand tier tree).Spelled ts) : (Phrase.chain tier tree).Spelled ts := by
  simpa [foldLinks] using Phrase.Spelled.chain h .noLinks

/-- A primary alone is an operand of both tiers. -/
theorem Phrase.Spelled.toOperand {tree : Node} (h : (Phrase.primary tree).Spelled ts)
    (tier : Tier) : (Phrase.operand tier tree).Spelled ts := by
  cases tier with
  | sum => exact .term (Phrase.Spelled.factor h).toChain
  | product => exact .factor h

/-- A primary alone is an expression. -/
theorem Phrase.Spelled.toExpression {tree : Node} (h : (Phrase.primary tree).Spelled ts) :
    (Phrase.chain .sum tree).Spelled ts :=
  (h.toOperand .sum).toChain

theorem spelled_one : (Phrase.chain .sum (.number "1")).Spelled [one] :=
  (Phrase.Spelled.number (t := one) rfl).toExpression

theorem spelled_emptyBlock : (Clause.block []).Spelled [openBrace, closeBrace] :=
  Clause.Spelled.block (o := openBrace) (c := closeBrace) rfl .noStatements rfl

/-! ## Expectations -/

/-- What `e` says is due goes on with `us` to a member of `L`: every token that a requirement
admits, and where an operand or a statement is due, a literal or `print`. -/
def Prompts (L : List Token → Prop) (e : Option Expected) (us : List Token) : Prop :=
  match e with
  | some x => ∀ t, x.Admits t → ∃ vs, L (us ++ t :: vs)
  | none => (∃ vs, L (us ++ one :: vs)) ∨ ∃ vs, L (us ++ printWord :: vs)

/-- What is due inside a part is due in the whole. -/
theorem Prompts.within {A B : List Token → Prop} {e : Option Expected} {us : List Token}
    (h : Prompts A e us) (pre : List Token) (hAB : ∀ w, A w → ∃ c, B (pre ++ (w ++ c))) :
    Prompts B e (pre ++ us) := by
  have extend {t : Token} : (∃ vs, A (us ++ t :: vs)) → ∃ vs, B (pre ++ us ++ t :: vs) := by
    rintro ⟨vs, hvs⟩
    obtain ⟨c, hc⟩ := hAB _ hvs
    exact ⟨vs ++ c, by simpa using hc⟩
  cases e with
  | some x => exact fun t ht => extend (h t ht)
  | none => exact h.imp extend extend

/-- The tokens that `r` takes satisfy `Q` with its value, and where it stops, what is due goes on
with them to tokens that satisfy `Q` with some value. -/
def Takes (r : Rule α) (ts : List Token) (Q : α → List Token → Prop) : Prop :=
  Covers r ts Q (Prompts fun us => ∃ v, Q v us)

/-! ## Step by step -/

/-- As `Takes`, for the tokens that `r` takes with the tokens `pre` before them. -/
def TakesAfter (pre : List Token) (r : Rule α) (ts : List Token) (Q : α → List Token → Prop) :
    Prop :=
  Covers r ts (fun v us => Q v (pre ++ us))
    fun e us => Prompts (fun us => ∃ v, Q v us) e (pre ++ us)

section Steps

variable {pre : List Token} {Q : β → List Token → Prop}

theorem takes_of_takesAfter {r : Rule β} (h : TakesAfter [] r ts Q) : Takes r ts Q := h

theorem takesAfter_pure {v : β} (h : Q v pre) : TakesAfter pre (pure v) ts Q :=
  covers_pure (by rwa [List.append_nil])

theorem takesAfter_stop {e : Option Expected} (h : Prompts (fun us => ∃ v, Q v us) e pre) :
    TakesAfter pre (stop e) ts Q :=
  covers_stop (by rwa [List.append_nil])

theorem takesAfter_look {k : Option (TokenKind × String) → Rule β}
    (h : TakesAfter pre (k (next ts)) ts Q) : TakesAfter pre (look >>= k) ts Q :=
  covers_look h

theorem takesAfter_take? {p : TokenKind × String → Bool} {k : Option String → Rule β}
    (hsome : ∀ t us, ts = t :: us → p t.form = true →
      TakesAfter (pre ++ [t]) (k (some t.lexeme)) us Q)
    (hnone : TakesAfter pre (k none) ts Q) : TakesAfter pre (take? p >>= k) ts Q := by
  refine covers_take? (fun t us hts ht => ?_) hnone
  simpa only [TakesAfter, List.append_assoc, List.singleton_append] using hsome t us hts ht

theorem takesAfter_expect {kind : TokenKind} {lexeme : String} {k : Unit → Rule β}
    (hdue : ∀ t, t.form = (kind, lexeme) → ∃ vs v, Q v (pre ++ t :: vs))
    (hk : ∀ t us, ts = t :: us → t.form = (kind, lexeme) → TakesAfter (pre ++ [t]) (k ()) us Q) :
    TakesAfter pre (erase (expect kind lexeme) >>= k) ts Q := by
  refine covers_expect (fun t ht => ?_) fun t us hts ht => ?_
  · simpa only [List.append_nil] using hdue t ht.form_eq
  · simpa only [TakesAfter, List.append_assoc, List.singleton_append] using hk t us hts ht

theorem takesAfter_expectIdentifier {k : String → Rule β}
    (hdue : ∀ t, t.kind = .identifier → ∃ vs v, Q v (pre ++ t :: vs))
    (hk : ∀ t us, ts = t :: us → t.kind = .identifier →
      TakesAfter (pre ++ [t]) (k t.lexeme) us Q) :
    TakesAfter pre (erase expectIdentifier >>= k) ts Q := by
  refine covers_expectIdentifier (fun t ht => ?_) fun t us hts ht => ?_
  · simpa only [List.append_nil] using hdue t ht.1
  · simpa only [TakesAfter, List.append_assoc, List.singleton_append] using hk t us hts ht

variable {r : Rule α} {Q₁ : α → List Token → Prop}

/-- A rule inside another one: whatever it takes can be completed to the whole. -/
theorem Takes.bind {k : α → Rule β} (h : Takes r ts Q₁)
    (hdue : ∀ v us, Q₁ v us → ∃ vs w, Q w (pre ++ (us ++ vs)))
    (hk : ∀ v used rest, r ts = .ok v rest → Q₁ v used → TakesAfter (pre ++ used) (k v) rest Q) :
    TakesAfter pre (r >>= k) ts Q := by
  refine Covers.bind h (fun e us he => ?_) fun v used rest hr hv => ?_
  · apply he.within pre
    rintro w ⟨v, hv⟩
    exact hdue v w hv
  · simpa only [TakesAfter, List.append_assoc] using hk v used rest hr hv

/-- A rule at the end of another one. -/
theorem Takes.last {f : α → β} (h : Takes r ts Q₁) (hQ : ∀ v us, Q₁ v us → Q (f v) (pre ++ us)) :
    TakesAfter pre (r >>= fun v => pure (f v)) ts Q := by
  refine h.bind (fun v us hv => ⟨[], f v, ?_⟩) fun v used _ _ hv => takesAfter_pure (hQ v used hv)
  rw [List.append_nil]
  exact hQ v us hv

/-- A rule that ends as another one does. -/
theorem Takes.same {Q₁ : β → List Token → Prop} {r : Rule β} (h : Takes r ts Q₁)
    (hQ : ∀ v us, Q₁ v us → Q v (pre ++ us)) : TakesAfter pre r ts Q := by
  rw [← bind_pure r]
  exact h.last hQ

end Steps

/-! ## Expressions -/

/-- The token list is the arguments `args` and a closing parenthesis. -/
def ClosedArguments (args : List Node) (ts : List Token) : Prop :=
  ∃ us r, ts = us ++ [r] ∧ r.form = (.paren, ")") ∧ (Phrase.arguments args).Spelled us

/-- What the rules for expressions have taken of the tokens `ts`. -/
structure TakesExpressions (ts : List Token) : Prop where
  primary : Takes (erase primary) ts fun tree us => (Phrase.primary tree).Spelled us
  operand (tier : Tier) :
    Takes (erase (operand tier)) ts fun tree us => (Phrase.operand tier tree).Spelled us
  chain (tier : Tier) :
    Takes (erase (chain tier)) ts fun tree us => (Phrase.chain tier tree).Spelled us
  chainFrom (tier : Tier) (left : Node) : Takes (erase (chainFrom tier left)) ts fun tree us =>
    ∃ pairs, tree = foldLinks left pairs ∧ (Phrase.links tier pairs).Spelled us
  arguments : Takes (erase arguments) ts ClosedArguments
  moreArguments :
    Takes (erase moreArguments) ts fun args us => (Phrase.moreArguments args).Spelled us

section Expressions

variable (ih : ∀ us : List Token, us.length < ts.length → TakesExpressions us)
include ih

theorem takes_primary :
    Takes (erase primary) ts fun tree us => (Phrase.primary tree).Spelled us := by
  rw [erase_primary]
  apply takes_of_takesAfter
  apply takesAfter_take?
  · intro t us _ ht
    exact takesAfter_pure (.number (of_decide_eq_true ht))
  apply takesAfter_take?
  · intro f us hts hf
    have hf : f.kind = .identifier := of_decide_eq_true hf
    apply takesAfter_take?
    · intro l vs hus hl
      have hl : l.form = (.paren, "(") := of_decide_eq_true hl
      have hlt : vs.length < ts.length := by
        simp only [hts, hus, List.length_cons]
        omega
      apply (ih vs hlt).arguments.last
      rintro args us ⟨us, r, rfl, hr, hargs⟩
      exact .call hf hl hargs hr
    · exact takesAfter_pure (.name hf)
  apply takesAfter_take?
  · intro l us hts hl
    have hl : l.form = (.paren, "(") := of_decide_eq_true hl
    have hlt : us.length < ts.length := by simp [hts]
    apply ((ih us hlt).chain .sum).bind
    · intro tree us htree
      exact ⟨[close], tree, .group hl htree rfl⟩
    intro tree used _ _ htree
    apply takesAfter_expect
    · intro r hr
      exact ⟨[], tree, by simpa using Phrase.Spelled.group hl htree hr⟩
    · intro r _ _ hr
      exact takesAfter_pure (by simpa using Phrase.Spelled.group hl htree hr)
  · -- No operand begins here, and a literal would be one.
    exact takesAfter_stop (.inl ⟨[], _, .number (t := one) rfl⟩)

theorem takes_chainFrom (tier : Tier) (left : Node) :
    Takes (erase (chainFrom tier left)) ts fun tree us =>
      ∃ pairs, tree = foldLinks left pairs ∧ (Phrase.links tier pairs).Spelled us := by
  rw [erase_chainFrom]
  apply takes_of_takesAfter
  apply takesAfter_take?
  · intro o us hts ho
    simp only [Bool.and_eq_true, decide_eq_true_eq, List.contains_iff_mem] at ho
    obtain ⟨ho, hmem⟩ := ho
    have hlt : us.length < ts.length := by simp [hts]
    apply ((ih us hlt).operand tier).bind
    · intro right us hright
      exact ⟨[], _, [(o.lexeme, right)], rfl,
        by simpa using Phrase.Spelled.link ho hmem hright .noLinks⟩
    intro right used rest hr hright
    have hlt' : rest.length < ts.length := Nat.lt_trans (length_rest_lt_of_erase hr) hlt
    apply ((ih rest hlt').chainFrom tier (.binaryOp left o.lexeme right)).same
    rintro tree us ⟨pairs, rfl, hpairs⟩
    refine ⟨(o.lexeme, right) :: pairs, rfl, ?_⟩
    simpa using Phrase.Spelled.link ho hmem hright hpairs
  · exact takesAfter_pure ⟨[], rfl, .noLinks⟩

theorem takes_chain {tier : Tier}
    (hoperand : Takes (erase (operand tier)) ts fun tree us =>
      (Phrase.operand tier tree).Spelled us) :
    Takes (erase (chain tier)) ts fun tree us => (Phrase.chain tier tree).Spelled us := by
  rw [erase_chain]
  apply takes_of_takesAfter
  apply hoperand.bind
  · intro tree us htree
    exact ⟨[], tree, by simpa using htree.toChain⟩
  intro left used rest hr hleft
  apply ((ih rest (length_rest_lt_of_erase hr)).chainFrom tier left).same
  rintro tree us ⟨pairs, rfl, hpairs⟩
  exact .chain hleft hpairs

/-- The tighter tier first: the operands of sums are chains of products. -/
theorem takes_operand (tier : Tier) :
    Takes (erase (operand tier)) ts fun tree us => (Phrase.operand tier tree).Spelled us := by
  have hproduct : Takes (erase (operand .product)) ts fun tree us =>
      (Phrase.operand .product tree).Spelled us := by
    rw [erase_operand_product]
    apply takes_of_takesAfter
    apply (takes_primary ih).same
    intro tree us htree
    exact .factor htree
  cases tier with
  | product => exact hproduct
  | sum =>
    rw [erase_operand_sum]
    apply takes_of_takesAfter
    apply (takes_chain ih hproduct).same
    intro tree us htree
    exact .term htree

theorem takes_moreArguments :
    Takes (erase moreArguments) ts fun args us => (Phrase.moreArguments args).Spelled us := by
  rw [erase_moreArguments]
  apply takes_of_takesAfter
  apply takesAfter_take?
  · intro s us hts hs
    have hs : s.lexeme = "," := of_decide_eq_true hs
    have hlt : us.length < ts.length := by simp [hts]
    apply ((ih us hlt).chain .sum).bind
    · intro next us hnext
      exact ⟨[], [next], by simpa using Phrase.Spelled.moreArguments hs hnext .noMoreArguments⟩
    intro next used rest hr hnext
    have hlt' : rest.length < ts.length := Nat.lt_trans (length_rest_lt_of_erase hr) hlt
    apply (ih rest hlt').moreArguments.last
    intro others us hothers
    simpa using Phrase.Spelled.moreArguments hs hnext hothers
  · exact takesAfter_pure .noMoreArguments

theorem takes_arguments : Takes (erase arguments) ts ClosedArguments := by
  rw [erase_arguments]
  apply takes_of_takesAfter
  apply takesAfter_take?
  · intro r us _ hr
    exact takesAfter_pure ⟨[], r, rfl, of_decide_eq_true hr, .noArguments⟩
  apply takesAfter_look
  cases ts with
  | nil =>
    apply takesAfter_stop
    intro r hr
    exact ⟨[], [], [], r, rfl, hr.form_eq, .noArguments⟩
  | cons t ts =>
    apply (takes_chain ih (takes_operand ih .sum)).bind
    · intro first us hfirst
      exact ⟨[close], [first], us, close, rfl, rfl,
        by simpa using Phrase.Spelled.someArguments hfirst .noMoreArguments⟩
    intro first used rest hr hfirst
    apply (ih rest (length_rest_lt_of_erase hr)).moreArguments.bind
    · intro others us hothers
      exact ⟨[close], first :: others, used ++ us, close, by simp, rfl,
        .someArguments hfirst hothers⟩
    intro others used' _ _ hothers
    have hargs : (Phrase.arguments (first :: others)).Spelled (used ++ used') :=
      .someArguments hfirst hothers
    apply takesAfter_expect
    · intro r hr
      exact ⟨[], first :: others, used ++ used', r, rfl, hr, hargs⟩
    · intro r _ _ hr
      exact takesAfter_pure ⟨used ++ used', r, rfl, hr, hargs⟩

end Expressions

theorem takes_expressions (ts : List Token) : TakesExpressions ts :=
  -- Wherever a rule calls another one again, it has taken a token before.
  have ih : ∀ us : List Token, us.length < ts.length → TakesExpressions us := fun us _ =>
    takes_expressions us
  { primary := takes_primary ih
    operand := takes_operand ih
    chain := fun tier => takes_chain ih (takes_operand ih tier)
    chainFrom := takes_chainFrom ih
    arguments := takes_arguments ih
    moreArguments := takes_moreArguments ih }
termination_by ts.length

/-! ## Function headers -/

theorem takes_moreParameters (ts : List Token) :
    Takes (erase moreParameters) ts MoreParametersSpelled := by
  rw [erase_moreParameters]
  apply takes_of_takesAfter
  apply takesAfter_take?
  · intro s us hts hs
    have hs : s.lexeme = "," := of_decide_eq_true hs
    apply takesAfter_expectIdentifier
    · intro n hn
      exact ⟨[], [n.lexeme], .cons hs hn .nil⟩
    intro n vs hus hn
    have hlt : vs.length < ts.length := by
      simp only [hts, hus, List.length_cons]
      omega
    apply (takes_moreParameters vs).last
    intro others us hothers
    exact .cons hs hn hothers
  · exact takesAfter_pure .nil
termination_by ts.length
decreasing_by exact hlt

theorem takes_parameters (ts : List Token) : Takes (erase parameters) ts ParametersSpelled := by
  rw [erase_parameters]
  apply takes_of_takesAfter
  apply takesAfter_take?
  · intro n us _ hn
    apply (takes_moreParameters us).last
    intro others us hothers
    exact .cons (of_decide_eq_true hn) hothers
  · exact takesAfter_pure .nil

/-- The token list is what precedes the block of a function. -/
def HeaderSpelled (header : String × List String) (ts : List Token) : Prop :=
  ∃ k n l r us, ts = k :: n :: l :: (us ++ [r]) ∧ k.form = (.keyword, "fn") ∧
    n.kind = .identifier ∧ header.1 = n.lexeme ∧ l.form = (.paren, "(") ∧
    ParametersSpelled header.2 us ∧ r.form = (.paren, ")")

theorem takes_functionHeader (ts : List Token) :
    Takes (erase functionHeader) ts HeaderSpelled := by
  rw [erase_functionHeader]
  apply takes_of_takesAfter
  apply takesAfter_expect
  · intro k hk
    exact ⟨[word, openParen, close], ("f", []), k, word, openParen, close, [], rfl, hk, rfl, rfl,
      rfl, .nil, rfl⟩
  intro k _ _ hk
  apply takesAfter_expectIdentifier
  · intro n hn
    exact ⟨[openParen, close], (n.lexeme, []), k, n, openParen, close, [], rfl, hk, hn, rfl, rfl,
      .nil, rfl⟩
  intro n _ _ hn
  apply takesAfter_expect
  · intro l hl
    exact ⟨[close], (n.lexeme, []), k, n, l, close, [], rfl, hk, hn, rfl, hl, .nil, rfl⟩
  intro l vs _ hl
  apply (takes_parameters vs).bind
  · intro params us hparams
    exact ⟨[close], (n.lexeme, params), k, n, l, close, us, rfl, hk, hn, rfl, hl, hparams, rfl⟩
  intro params used _ _ hparams
  apply takesAfter_expect
  · intro r hr
    exact ⟨[], (n.lexeme, params), k, n, l, r, used, rfl, hk, hn, rfl, hl, hparams, hr⟩
  · intro r _ _ hr
    exact takesAfter_pure ⟨k, n, l, r, used, rfl, hk, hn, rfl, hl, hparams, hr⟩

/-! ## Statements without a block -/

theorem takes_assignmentOrCall (ts : List Token) :
    Takes (erase assignmentOrCall) ts fun tree us => (Clause.statement tree).Spelled us := by
  rw [erase_assignmentOrCall]
  apply takes_of_takesAfter
  apply takesAfter_expectIdentifier
  · intro x hx
    exact ⟨[openParen, close], .functionCall x.lexeme [],
      .call (l := openParen) (r := close) hx rfl .noArguments rfl⟩
  intro x _ _ hx
  apply takesAfter_take?
  · intro l vs _ hl
    apply (takes_expressions vs).arguments.last
    rintro args us ⟨us, r, rfl, hr, hargs⟩
    exact .call hx (of_decide_eq_true hl) hargs hr
  apply takesAfter_take?
  · intro o vs _ ho
    apply ((takes_expressions vs).chain .sum).last
    intro value us hvalue
    exact .compoundAssignment hx (of_decide_eq_true ho) hvalue
  apply takesAfter_expect
  · intro o ho
    exact ⟨[one], .assignment x.lexeme (.number "1"), .assignment hx ho spelled_one⟩
  intro o vs _ ho
  apply ((takes_expressions vs).chain .sum).last
  intro value us hvalue
  exact .assignment hx ho hvalue

theorem takes_printStatement (ts : List Token) :
    Takes (erase printStatement) ts fun tree us => (Clause.statement tree).Spelled us := by
  rw [erase_printStatement]
  apply takes_of_takesAfter
  apply takesAfter_expect
  · intro k hk
    exact ⟨[openParen, one, close], .functionCall "print" [.number "1"],
      .print (l := openParen) (r := close) hk rfl spelled_one rfl⟩
  intro k _ _ hk
  apply takesAfter_expect
  · intro l hl
    exact ⟨[one, close], .functionCall "print" [.number "1"],
      .print (r := close) hk hl spelled_one rfl⟩
  intro l vs _ hl
  apply ((takes_expressions vs).chain .sum).bind
  · intro arg us harg
    exact ⟨[close], .functionCall "print" [arg], .print (r := close) hk hl harg rfl⟩
  intro arg used _ _ harg
  apply takesAfter_expect
  · intro r hr
    exact ⟨[], .functionCall "print" [arg], .print hk hl harg hr⟩
  · intro r _ _ hr
    exact takesAfter_pure (.print hk hl harg hr)

/-! ## Statements with a block -/

/-- What the rules for statements have taken of the tokens `ts`. -/
structure TakesStatements (ts : List Token) : Prop where
  ifStatement : Takes (erase ifStatement) ts fun tree us => (Clause.statement tree).Spelled us
  functionDecl : Takes (erase functionDecl) ts fun tree us => (Clause.statement tree).Spelled us
  block : Takes (erase block) ts fun body us => (Clause.block body).Spelled us
  blockBody : Takes (erase blockBody) ts fun trees us => (Clause.statements trees).Spelled us
  statement : Takes (erase statement) ts fun tree us => (Clause.statement tree).Spelled us

/-- A statement and what the rule for the others takes are taken in a row. -/
theorem takes_first_and_others {others : Rule (List Node)}
    (hfirst : Takes (erase statement) ts fun tree us => (Clause.statement tree).Spelled us)
    (hothers : ∀ us, us.length < ts.length →
      Takes others us fun trees us => (Clause.statements trees).Spelled us) :
    Takes (do let tree ← erase statement; let trees ← others; pure (tree :: trees)) ts
      fun trees us => (Clause.statements trees).Spelled us := by
  apply takes_of_takesAfter
  apply hfirst.bind
  · intro tree us htree
    exact ⟨[], [tree], by simpa using Clause.Spelled.statements htree .noStatements⟩
  intro tree used rest hr htree
  apply (hothers rest (length_rest_lt_of_erase hr)).last
  intro trees us htrees
  exact .statements htree htrees

section Statements

variable (ih : ∀ us : List Token, us.length < ts.length → TakesStatements us)
include ih

theorem takes_ifStatement :
    Takes (erase ifStatement) ts fun tree us => (Clause.statement tree).Spelled us := by
  rw [erase_ifStatement]
  apply takes_of_takesAfter
  apply takesAfter_expect
  · intro k hk
    exact ⟨[one, openBrace, closeBrace], .ifStatement (.number "1") [],
      .ifStatement hk spelled_one spelled_emptyBlock⟩
  intro k us hts hk
  apply ((takes_expressions us).chain .sum).bind
  · intro condition us hcondition
    exact ⟨[openBrace, closeBrace], .ifStatement condition [],
      by simpa using Clause.Spelled.ifStatement hk hcondition spelled_emptyBlock⟩
  intro condition used rest hr hcondition
  have hlt : rest.length < ts.length := by
    have := length_rest_lt_of_erase hr
    simp only [hts, List.length_cons]
    omega
  apply (ih rest hlt).block.last
  intro body us hbody
  exact .ifStatement hk hcondition hbody

theorem takes_functionDecl :
    Takes (erase functionDecl) ts fun tree us => (Clause.statement tree).Spelled us := by
  rw [erase_functionDecl]
  apply takes_of_takesAfter
  apply (takes_functionHeader ts).bind
  · rintro ⟨name, params⟩ us ⟨k, n, l, r, us, rfl, hk, hn, rfl, hl, hparams, hr⟩
    exact ⟨[openBrace, closeBrace], .functionDecl n.lexeme params [],
      by simpa using Clause.Spelled.functionDecl hk hn hl hparams hr spelled_emptyBlock⟩
  rintro ⟨name, params⟩ used rest hrest ⟨k, n, l, r, us, rfl, hk, hn, rfl, hl, hparams, hr⟩
  apply (ih rest (length_rest_lt_of_erase hrest)).block.last
  intro body vs hbody
  simpa using Clause.Spelled.functionDecl hk hn hl hparams hr hbody

theorem takes_block : Takes (erase block) ts fun body us => (Clause.block body).Spelled us := by
  rw [erase_block]
  apply takes_of_takesAfter
  apply takesAfter_expect
  · intro o ho
    exact ⟨[closeBrace], [], .block (c := closeBrace) ho .noStatements rfl⟩
  intro o us hts ho
  have hlt : us.length < ts.length := by simp [hts]
  apply (ih us hlt).blockBody.bind
  · intro body us hbody
    exact ⟨[closeBrace], body, .block (c := closeBrace) ho hbody rfl⟩
  intro body used _ _ hbody
  apply takesAfter_expect
  · intro c hc
    exact ⟨[], body, .block ho hbody hc⟩
  · intro c _ _ hc
    exact takesAfter_pure (.block ho hbody hc)

theorem takes_statement :
    Takes (erase statement) ts fun tree us => (Clause.statement tree).Spelled us := by
  -- Where no statement begins, `print` would begin one.
  have hdue : Prompts (fun us => ∃ tree, (Clause.statement tree).Spelled us) none [] :=
    .inr ⟨[openParen, one, close], .functionCall "print" [.number "1"],
      .print (k := printWord) (l := openParen) (r := close) rfl rfl spelled_one rfl⟩
  rw [erase_statement]
  apply covers_look
  cases ts with
  | nil => exact covers_stop hdue
  | cons t ts =>
    simp only [next_cons]
    split
    · exact takes_functionDecl ih
    split
    · exact takes_ifStatement ih
    split
    · exact takes_printStatement _
    split
    · exact takes_assignmentOrCall _
    · exact covers_stop hdue

theorem takes_blockBody :
    Takes (erase blockBody) ts fun trees us => (Clause.statements trees).Spelled us := by
  rw [erase_blockBody]
  apply covers_look
  cases ts with
  | nil => exact covers_pure .noStatements
  | cons t ts =>
    simp only [next_cons]
    split
    · exact covers_pure .noStatements
    · exact takes_first_and_others (takes_statement ih) fun us hlt => (ih us hlt).blockBody

end Statements

theorem takes_statements (ts : List Token) : TakesStatements ts :=
  have ih : ∀ us : List Token, us.length < ts.length → TakesStatements us := fun us _ =>
    takes_statements us
  { ifStatement := takes_ifStatement ih
    functionDecl := takes_functionDecl ih
    block := takes_block ih
    blockBody := takes_blockBody ih
    statement := takes_statement ih }
termination_by ts.length

/-! ## Programs -/

theorem takes_program (ts : List Token) :
    Takes Rule.statements ts fun trees us => (Clause.statements trees).Spelled us := by
  rw [statements_eq]
  apply covers_look
  cases ts with
  | nil => exact covers_pure .noStatements
  | cons t ts =>
    exact takes_first_and_others (takes_statements _).statement fun us hlt => takes_program us
termination_by ts.length
decreasing_by exact hlt

theorem derives_of_parse {p : Program} (h : parse ts = .ok p) : Derives ts p := by
  rw [parse] at h
  cases hs : Grammar.statements ts with
  | error f => rw [hs] at h; cases h
  | ok trees =>
    rw [hs] at h
    cases h
    have hr : Rule.statements ts = .ok trees [] := by rw [Rule.statements, hs]
    have ht := takes_program ts
    rw [Takes, Covers, hr] at ht
    obtain ⟨used, rfl, hused⟩ := ht
    rwa [List.append_nil]

end Grammar

end Pocl
