import Pocl.Proofs.Grammar.Lookahead

/-!
# The grammar

The grammar says which token lists spell which trees, without saying how a list is read. Its
phrases carry what they stand for, so that one relation holds both the shape of a list and the
tree. A number or a name is any token of that class, and a separator is a token of any class whose
lexeme is a comma.

## Main definitions

* `Phrase.Spelled`: the tokens that spell a phrase inside an expression
* `ParametersSpelled`: the tokens that spell the parameters of a function
* `Clause.Spelled`: the tokens that spell statements and blocks
* `Derives ts p`: the token list `ts` spells the program `p`

## Main results

* `Phrase.Spelled.alike`, `Clause.Spelled.alike`: only the forms of the tokens matter
* `Phrase.Spelled.starts`, `Clause.Spelled.starts`: how expressions and statements begin
-/

namespace Pocl.Grammar

open Rule (Alike)

/-! ## Expressions -/

/-- The operators and operands `pairs` folded to the left onto `first`. -/
def foldLinks (first : Node) (pairs : List (String × Node)) : Node :=
  pairs.foldl (fun left pair => .binaryOp left pair.1 pair.2) first

/-- A part of an expression, with what it stands for. -/
inductive Phrase where
  | primary (tree : Node)
  | operand (tier : Tier) (tree : Node)
  | links (tier : Tier) (pairs : List (String × Node))
  | chain (tier : Tier) (tree : Node)
  | arguments (args : List Node)
  | moreArguments (args : List Node)

/-- The tokens that spell a part of an expression. A group leaves no trace in the tree. An operand
of a sum is a chain of products, and an operand of a product is a primary. A chain is an operand
with links after it, each an operator and its right operand, and arguments are chains of sums, each
but the first after a separator. -/
inductive Phrase.Spelled : Phrase → List Token → Prop where
  | number {t : Token} : t.kind = .literal → Spelled (.primary (.number t.lexeme)) [t]
  | name {t : Token} : t.kind = .identifier → Spelled (.primary (.identifier t.lexeme)) [t]
  | call {f l r : Token} {ts : List Token} {args : List Node} :
      f.kind = .identifier → l.form = (.paren, "(") → Spelled (.arguments args) ts →
      r.form = (.paren, ")") →
      Spelled (.primary (.functionCall f.lexeme args)) (f :: l :: (ts ++ [r]))
  | group {l r : Token} {ts : List Token} {tree : Node} :
      l.form = (.paren, "(") → Spelled (.chain .sum tree) ts → r.form = (.paren, ")") →
      Spelled (.primary tree) (l :: (ts ++ [r]))
  | term {ts : List Token} {tree : Node} :
      Spelled (.chain .product tree) ts → Spelled (.operand .sum tree) ts
  | factor {ts : List Token} {tree : Node} :
      Spelled (.primary tree) ts → Spelled (.operand .product tree) ts
  | noLinks {tier : Tier} : Spelled (.links tier []) []
  | link {tier : Tier} {o : Token} {us vs : List Token} {right : Node}
      {pairs : List (String × Node)} :
      o.kind = .operator → o.lexeme ∈ tier.operators → Spelled (.operand tier right) us →
      Spelled (.links tier pairs) vs →
      Spelled (.links tier ((o.lexeme, right) :: pairs)) (o :: (us ++ vs))
  | chain {tier : Tier} {us vs : List Token} {first : Node} {pairs : List (String × Node)} :
      Spelled (.operand tier first) us → Spelled (.links tier pairs) vs →
      Spelled (.chain tier (foldLinks first pairs)) (us ++ vs)
  | noArguments : Spelled (.arguments []) []
  | someArguments {us vs : List Token} {first : Node} {others : List Node} :
      Spelled (.chain .sum first) us → Spelled (.moreArguments others) vs →
      Spelled (.arguments (first :: others)) (us ++ vs)
  | noMoreArguments : Spelled (.moreArguments []) []
  | moreArguments {s : Token} {us vs : List Token} {next : Node} {others : List Node} :
      s.lexeme = "," → Spelled (.chain .sum next) us → Spelled (.moreArguments others) vs →
      Spelled (.moreArguments (next :: others)) (s :: (us ++ vs))

/-! ## Statements -/

/-- The tokens that spell further parameters, each after a separator. -/
inductive MoreParametersSpelled : List String → List Token → Prop where
  | nil : MoreParametersSpelled [] []
  | cons {s n : Token} {names : List String} {ts : List Token} :
      s.lexeme = "," → n.kind = .identifier → MoreParametersSpelled names ts →
      MoreParametersSpelled (n.lexeme :: names) (s :: n :: ts)

/-- The tokens that spell the parameters of a function. -/
inductive ParametersSpelled : List String → List Token → Prop where
  | nil : ParametersSpelled [] []
  | cons {n : Token} {names : List String} {ts : List Token} :
      n.kind = .identifier → MoreParametersSpelled names ts →
      ParametersSpelled (n.lexeme :: names) (n :: ts)

/-- A part of a program outside expressions, with what it stands for. -/
inductive Clause where
  | statement (tree : Node)
  | statements (trees : List Node)
  | block (body : List Node)

/-- The tokens that spell statements and blocks. Statements follow one another without a separator,
and `print` takes exactly one argument. -/
inductive Clause.Spelled : Clause → List Token → Prop where
  | functionDecl {k n l r : Token} {us vs : List Token} {names : List String}
      {body : List Node} :
      k.form = (.keyword, "fn") → n.kind = .identifier → l.form = (.paren, "(") →
      ParametersSpelled names us → r.form = (.paren, ")") → Spelled (.block body) vs →
      Spelled (.statement (.functionDecl n.lexeme names body)) (k :: n :: l :: (us ++ r :: vs))
  | ifStatement {k : Token} {us vs : List Token} {condition : Node} {body : List Node} :
      k.form = (.keyword, "if") → (Phrase.chain .sum condition).Spelled us →
      Spelled (.block body) vs →
      Spelled (.statement (.ifStatement condition body)) (k :: (us ++ vs))
  | print {k l r : Token} {us : List Token} {argument : Node} :
      k.form = (.keyword, "print") → l.form = (.paren, "(") →
      (Phrase.chain .sum argument).Spelled us → r.form = (.paren, ")") →
      Spelled (.statement (.functionCall "print" [argument])) (k :: l :: (us ++ [r]))
  | call {f l r : Token} {us : List Token} {args : List Node} :
      f.kind = .identifier → l.form = (.paren, "(") → (Phrase.arguments args).Spelled us →
      r.form = (.paren, ")") →
      Spelled (.statement (.functionCall f.lexeme args)) (f :: l :: (us ++ [r]))
  | compoundAssignment {x o : Token} {us : List Token} {value : Node} :
      x.kind = .identifier → o.form = (.operator, "+=") → (Phrase.chain .sum value).Spelled us →
      Spelled (.statement (.compoundAssignment x.lexeme "+=" value)) (x :: o :: us)
  | assignment {x o : Token} {us : List Token} {value : Node} :
      x.kind = .identifier → o.form = (.operator, "=") → (Phrase.chain .sum value).Spelled us →
      Spelled (.statement (.assignment x.lexeme value)) (x :: o :: us)
  | noStatements : Spelled (.statements []) []
  | statements {us vs : List Token} {first : Node} {others : List Node} :
      Spelled (.statement first) us → Spelled (.statements others) vs →
      Spelled (.statements (first :: others)) (us ++ vs)
  | block {o c : Token} {us : List Token} {body : List Node} :
      o.form = (.brace, "\x7b") → Spelled (.statements body) us → c.form = (.brace, "\x7d") →
      Spelled (.block body) (o :: (us ++ [c]))

/-- The token list `ts` spells the program `p`. -/
def Derives (ts : List Token) (p : Program) : Prop :=
  (Clause.statements p.statements).Spelled ts

/-! ## Places -/

section Alike

variable {ts us : List Token}

theorem kind_eq_of_form_eq {t u : Token} (h : u.form = t.form) : u.kind = t.kind :=
  congrArg Prod.fst h

theorem lexeme_eq_of_form_eq {t u : Token} (h : u.form = t.form) : u.lexeme = t.lexeme :=
  congrArg Prod.snd h

theorem Phrase.Spelled.alike {phrase : Phrase} (h : phrase.Spelled ts) (hu : Alike us ts) :
    phrase.Spelled us := by
  induction h generalizing us with
  | number ht =>
    obtain ⟨u, rfl, hform⟩ := Alike.singleton_iff.mp hu
    rw [← lexeme_eq_of_form_eq hform]
    exact .number ((kind_eq_of_form_eq hform).trans ht)
  | name ht =>
    obtain ⟨u, rfl, hform⟩ := Alike.singleton_iff.mp hu
    rw [← lexeme_eq_of_form_eq hform]
    exact .name ((kind_eq_of_form_eq hform).trans ht)
  | call hf hl _ hr ih =>
    obtain ⟨f, us, rfl, hform, hu⟩ := Alike.cons_iff.mp hu
    obtain ⟨l, us, rfl, hl', hu⟩ := Alike.cons_iff.mp hu
    obtain ⟨us, vs, rfl, hw, hv⟩ := Alike.append_iff.mp hu
    obtain ⟨r, rfl, hr'⟩ := Alike.singleton_iff.mp hv
    rw [← lexeme_eq_of_form_eq hform]
    exact .call ((kind_eq_of_form_eq hform).trans hf) (hl'.trans hl) (ih hw) (hr'.trans hr)
  | group hl _ hr ih =>
    obtain ⟨l, us, rfl, hl', hu⟩ := Alike.cons_iff.mp hu
    obtain ⟨us, vs, rfl, hw, hv⟩ := Alike.append_iff.mp hu
    obtain ⟨r, rfl, hr'⟩ := Alike.singleton_iff.mp hv
    exact .group (hl'.trans hl) (ih hw) (hr'.trans hr)
  | term _ ih => exact .term (ih hu)
  | factor _ ih => exact .factor (ih hu)
  | noLinks =>
    obtain rfl := Alike.nil_iff.mp hu
    exact .noLinks
  | link ho hmem _ _ ihr ihl =>
    obtain ⟨o, us, rfl, hform, hu⟩ := Alike.cons_iff.mp hu
    obtain ⟨us, vs, rfl, hw, hv⟩ := Alike.append_iff.mp hu
    rw [← lexeme_eq_of_form_eq hform] at hmem ⊢
    exact .link ((kind_eq_of_form_eq hform).trans ho) hmem (ihr hw) (ihl hv)
  | chain _ _ ihf ihl =>
    obtain ⟨us, vs, rfl, hw, hv⟩ := Alike.append_iff.mp hu
    exact .chain (ihf hw) (ihl hv)
  | noArguments =>
    obtain rfl := Alike.nil_iff.mp hu
    exact .noArguments
  | someArguments _ _ ihf iho =>
    obtain ⟨us, vs, rfl, hw, hv⟩ := Alike.append_iff.mp hu
    exact .someArguments (ihf hw) (iho hv)
  | noMoreArguments =>
    obtain rfl := Alike.nil_iff.mp hu
    exact .noMoreArguments
  | moreArguments hs _ _ ihn iho =>
    obtain ⟨s, us, rfl, hform, hu⟩ := Alike.cons_iff.mp hu
    obtain ⟨us, vs, rfl, hw, hv⟩ := Alike.append_iff.mp hu
    exact .moreArguments ((lexeme_eq_of_form_eq hform).trans hs) (ihn hw) (iho hv)

theorem MoreParametersSpelled.alike {names : List String} (h : MoreParametersSpelled names ts)
    (hu : Alike us ts) : MoreParametersSpelled names us := by
  induction h generalizing us with
  | nil =>
    obtain rfl := Alike.nil_iff.mp hu
    exact .nil
  | cons hs hn _ ih =>
    obtain ⟨s, us, rfl, hs', hu⟩ := Alike.cons_iff.mp hu
    obtain ⟨n, us, rfl, hn', hu⟩ := Alike.cons_iff.mp hu
    rw [← lexeme_eq_of_form_eq hn']
    exact .cons ((lexeme_eq_of_form_eq hs').trans hs) ((kind_eq_of_form_eq hn').trans hn) (ih hu)

theorem ParametersSpelled.alike {names : List String} (h : ParametersSpelled names ts)
    (hu : Alike us ts) : ParametersSpelled names us := by
  cases h with
  | nil =>
    obtain rfl := Alike.nil_iff.mp hu
    exact .nil
  | cons hn hmore =>
    obtain ⟨n, us, rfl, hn', hu⟩ := Alike.cons_iff.mp hu
    rw [← lexeme_eq_of_form_eq hn']
    exact .cons ((kind_eq_of_form_eq hn').trans hn) (hmore.alike hu)

theorem Clause.Spelled.alike {clause : Clause} (h : clause.Spelled ts) (hu : Alike us ts) :
    clause.Spelled us := by
  induction h generalizing us with
  | functionDecl hk hn hl hp hr _ ih =>
    obtain ⟨k, us, rfl, hk', hu⟩ := Alike.cons_iff.mp hu
    obtain ⟨n, us, rfl, hn', hu⟩ := Alike.cons_iff.mp hu
    obtain ⟨l, us, rfl, hl', hu⟩ := Alike.cons_iff.mp hu
    obtain ⟨us, vs, rfl, hw, hv⟩ := Alike.append_iff.mp hu
    obtain ⟨r, vs, rfl, hr', hv⟩ := Alike.cons_iff.mp hv
    rw [← lexeme_eq_of_form_eq hn']
    exact .functionDecl (hk'.trans hk) ((kind_eq_of_form_eq hn').trans hn) (hl'.trans hl)
      (hp.alike hw) (hr'.trans hr) (ih hv)
  | ifStatement hk hc _ ih =>
    obtain ⟨k, us, rfl, hk', hu⟩ := Alike.cons_iff.mp hu
    obtain ⟨us, vs, rfl, hw, hv⟩ := Alike.append_iff.mp hu
    exact .ifStatement (hk'.trans hk) (hc.alike hw) (ih hv)
  | print hk hl ha hr =>
    obtain ⟨k, us, rfl, hk', hu⟩ := Alike.cons_iff.mp hu
    obtain ⟨l, us, rfl, hl', hu⟩ := Alike.cons_iff.mp hu
    obtain ⟨us, vs, rfl, hw, hv⟩ := Alike.append_iff.mp hu
    obtain ⟨r, rfl, hr'⟩ := Alike.singleton_iff.mp hv
    exact .print (hk'.trans hk) (hl'.trans hl) (ha.alike hw) (hr'.trans hr)
  | call hf hl ha hr =>
    obtain ⟨f, us, rfl, hf', hu⟩ := Alike.cons_iff.mp hu
    obtain ⟨l, us, rfl, hl', hu⟩ := Alike.cons_iff.mp hu
    obtain ⟨us, vs, rfl, hw, hv⟩ := Alike.append_iff.mp hu
    obtain ⟨r, rfl, hr'⟩ := Alike.singleton_iff.mp hv
    rw [← lexeme_eq_of_form_eq hf']
    exact .call ((kind_eq_of_form_eq hf').trans hf) (hl'.trans hl) (ha.alike hw) (hr'.trans hr)
  | compoundAssignment hx ho hv =>
    obtain ⟨x, us, rfl, hx', hu⟩ := Alike.cons_iff.mp hu
    obtain ⟨o, us, rfl, ho', hu⟩ := Alike.cons_iff.mp hu
    rw [← lexeme_eq_of_form_eq hx']
    exact .compoundAssignment ((kind_eq_of_form_eq hx').trans hx) (ho'.trans ho) (hv.alike hu)
  | assignment hx ho hv =>
    obtain ⟨x, us, rfl, hx', hu⟩ := Alike.cons_iff.mp hu
    obtain ⟨o, us, rfl, ho', hu⟩ := Alike.cons_iff.mp hu
    rw [← lexeme_eq_of_form_eq hx']
    exact .assignment ((kind_eq_of_form_eq hx').trans hx) (ho'.trans ho) (hv.alike hu)
  | noStatements =>
    obtain rfl := Alike.nil_iff.mp hu
    exact .noStatements
  | statements _ _ ihf iho =>
    obtain ⟨us, vs, rfl, hw, hv⟩ := Alike.append_iff.mp hu
    exact .statements (ihf hw) (iho hv)
  | block ho _ hc ih =>
    obtain ⟨o, us, rfl, ho', hu⟩ := Alike.cons_iff.mp hu
    obtain ⟨us, vs, rfl, hw, hv⟩ := Alike.append_iff.mp hu
    obtain ⟨c, rfl, hc'⟩ := Alike.singleton_iff.mp hv
    exact .block (ho'.trans ho) (ih hw) (hc'.trans hc)

end Alike

/-! ## Beginnings -/

/-- The forms that an operand begins with. -/
def OperandStart (form : TokenKind × String) : Prop :=
  form.1 = .literal ∨ form.1 = .identifier ∨ form = (.paren, "(")

/-- The phrases that cannot be empty. -/
def Phrase.Solid : Phrase → Prop
  | primary _ | operand _ _ | chain _ _ => True
  | links _ _ | arguments _ | moreArguments _ => False

theorem Phrase.Spelled.starts {phrase : Phrase} {ts : List Token} (h : phrase.Spelled ts)
    (hs : phrase.Solid) : ∃ t us, ts = t :: us ∧ OperandStart t.form := by
  induction h with
  | number ht => exact ⟨_, _, rfl, .inl ht⟩
  | name ht => exact ⟨_, _, rfl, .inr (.inl ht)⟩
  | call hf => exact ⟨_, _, rfl, .inr (.inl hf)⟩
  | group hl => exact ⟨_, _, rfl, .inr (.inr hl)⟩
  | term _ ih => exact ih trivial
  | factor _ ih => exact ih trivial
  | chain _ _ ih _ =>
    obtain ⟨t, us, rfl, ht⟩ := ih trivial
    exact ⟨t, _, List.cons_append, ht⟩
  | noLinks | link | noArguments | someArguments | noMoreArguments | moreArguments => exact hs.elim

theorem kind_of_form {t : Token} {kind : TokenKind} {lexeme : String}
    (h : t.form = (kind, lexeme)) : t.kind = kind :=
  congrArg Prod.fst h

theorem Clause.Spelled.starts {tree : Node} {ts : List Token}
    (h : (Clause.statement tree).Spelled ts) :
    ∃ t us, ts = t :: us ∧ (t.kind = .keyword ∨ t.kind = .identifier) := by
  cases h with
  | functionDecl hk => exact ⟨_, _, rfl, .inl (kind_of_form hk)⟩
  | ifStatement hk => exact ⟨_, _, rfl, .inl (kind_of_form hk)⟩
  | print hk => exact ⟨_, _, rfl, .inl (kind_of_form hk)⟩
  | call hf => exact ⟨_, _, rfl, .inr hf⟩
  | compoundAssignment hx => exact ⟨_, _, rfl, .inr hx⟩
  | assignment hx => exact ⟨_, _, rfl, .inr hx⟩

end Pocl.Grammar
