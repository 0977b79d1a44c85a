import Pocl.Proofs.Grammar.Acceptance
import Pocl.Proofs.Token.Spelling

/-!
# The trees of source texts

Not every token list is the list of a source text: a scanned number is a run of digits, a scanned
name is a word that is not reserved, and no operator is longer than one character except `..`. The
trees of source texts are the ones whose numbers, names and operators have these shapes. Each of
them has a source text, in which every operand stands in parentheses.

## Main definitions

* `IsNumber`, `IsName`: the texts of numbers and names
* `IsExpression`, `IsStatement`: the trees of expressions and statements
* `WellFormed p`: every statement of the program has the tree of a statement
* `Spellable L`: some tokens with the shapes of their classes satisfy `L`

## Main results

* `Phrase.Spelled.formed`, `Clause.Spelled.formed`: scanned tokens spell well-formed trees
* `IsExpression.spellable`, `IsStatement.spellable`: every well-formed tree is spelled
* `exists_parseSource_iff_wellFormed`: the programs that source texts have
-/

namespace Pocl

open Grammar Rule

variable {t : Token} {ts us vs : List Token} {tree : Node} {args trees : List Node}
  {name operator : String} {names : List String} {tier : Tier}

/-! ## Well-formed trees -/

/-- A number is a run of ASCII digits. -/
def IsNumber (value : String) : Prop :=
  value ≠ "" ∧ ∀ c ∈ value.toList, c.isDigit = true

/-- A name is a word that is not reserved. -/
def IsName (name : String) : Prop :=
  IsWord name ∧ name ∉ keywords

/-- The trees of expressions. -/
inductive IsExpression : Node → Prop where
  | number {value : String} : IsNumber value → IsExpression (.number value)
  | identifier {name : String} : IsName name → IsExpression (.identifier name)
  | functionCall {callee : String} {args : List Node} :
      IsName callee → (∀ arg ∈ args, IsExpression arg) → IsExpression (.functionCall callee args)
  | binaryOp {left right : Node} {operator : String} :
      IsExpression left → operator ∈ ["+", "-", "*", "/"] → IsExpression right →
      IsExpression (.binaryOp left operator right)

/-- The trees of statements. Only `print` with one argument may use a reserved word as its name. -/
inductive IsStatement : Node → Prop where
  | assignment {target : String} {value : Node} :
      IsName target → IsExpression value → IsStatement (.assignment target value)
  | functionCall {callee : String} {args : List Node} :
      IsName callee → (∀ arg ∈ args, IsExpression arg) → IsStatement (.functionCall callee args)
  | print {argument : Node} :
      IsExpression argument → IsStatement (.functionCall "print" [argument])
  | functionDecl {name : String} {parameters : List String} {body : List Node} :
      IsName name → (∀ parameter ∈ parameters, IsName parameter) →
      (∀ tree ∈ body, IsStatement tree) → IsStatement (.functionDecl name parameters body)
  | ifStatement {condition : Node} {body : List Node} :
      IsExpression condition → (∀ tree ∈ body, IsStatement tree) →
      IsStatement (.ifStatement condition body)

/-- Every statement of the program has the tree of a statement. -/
def WellFormed (p : Program) : Prop :=
  ∀ tree ∈ p.statements, IsStatement tree

/-! ## Scanned tokens spell well-formed trees -/

theorem Shaped.isNumber (h : Shaped t.form) (hk : t.kind = .literal) : IsNumber t.lexeme := by
  obtain ⟨hne, hfits⟩ := h
  simp only [Token.form, hk, Fits] at hfits
  exact ⟨hne, hfits.1⟩

theorem Shaped.isName (h : Shaped t.form) (hk : t.kind = .identifier) : IsName t.lexeme := by
  obtain ⟨-, hfits⟩ := h
  simp only [Token.form, hk, Fits] at hfits
  exact ⟨hfits.1, hfits.2.1⟩

/-- The operator `+=` is never scanned. -/
theorem not_shaped_compound : ¬ Shaped (.operator, "+=") := by
  rintro ⟨-, hfits⟩
  revert hfits
  simp [Fits]

namespace Grammar

/-- What a part of an expression stands for is well-formed. -/
def Phrase.Formed : Phrase → Prop
  | primary tree | operand _ tree | chain _ tree => IsExpression tree
  | links _ pairs => ∀ pair ∈ pairs, pair.1 ∈ ["+", "-", "*", "/"] ∧ IsExpression pair.2
  | arguments args | moreArguments args => ∀ arg ∈ args, IsExpression arg

/-- What a part of a program stands for is well-formed. -/
def Clause.Formed : Clause → Prop
  | statement tree => IsStatement tree
  | statements trees | block trees => ∀ tree ∈ trees, IsStatement tree

theorem isExpression_foldLinks {first : Node} {pairs : List (String × Node)}
    (hf : IsExpression first) (hp : (Phrase.links tier pairs).Formed) :
    IsExpression (foldLinks first pairs) := by
  induction pairs generalizing first with
  | nil => exact hf
  | cons pair pairs ih =>
    obtain ⟨⟨ho, hr⟩, hpairs⟩ := List.forall_mem_cons.mp hp
    exact ih (.binaryOp hf ho hr) hpairs

theorem Tier.exists_mem_operators_iff :
    (∃ tier : Tier, operator ∈ tier.operators) ↔ operator ∈ ["+", "-", "*", "/"] := by
  constructor
  · rintro ⟨tier, h⟩
    cases tier <;> revert operator <;> decide
  · intro h
    simp only [List.mem_cons, List.not_mem_nil, or_false] at h
    rcases h with rfl | rfl | rfl | rfl
    · exact ⟨.sum, by decide⟩
    · exact ⟨.sum, by decide⟩
    · exact ⟨.product, by decide⟩
    · exact ⟨.product, by decide⟩

theorem Phrase.Spelled.formed {phrase : Phrase} (h : phrase.Spelled ts)
    (hts : ∀ t ∈ ts, Shaped t.form) : phrase.Formed := by
  induction h with
  | number ht => exact .number ((hts _ (.head _)).isNumber ht)
  | name ht => exact .identifier ((hts _ (.head _)).isName ht)
  | call hf _ _ _ ih =>
    simp only [List.forall_mem_cons, List.forall_mem_append] at hts
    exact .functionCall (hts.1.isName hf) (ih hts.2.2.1)
  | group _ _ _ ih =>
    simp only [List.forall_mem_cons, List.forall_mem_append] at hts
    exact ih hts.2.1
  | term _ ih => exact ih hts
  | factor _ ih => exact ih hts
  | noLinks => exact List.forall_mem_nil _
  | link _ hmem _ _ ihr ihl =>
    simp only [List.forall_mem_cons, List.forall_mem_append] at hts
    have ho := Tier.exists_mem_operators_iff.mp ⟨_, hmem⟩
    exact List.forall_mem_cons.mpr ⟨⟨ho, ihr hts.2.1⟩, ihl hts.2.2⟩
  | chain _ _ ihf ihl =>
    obtain ⟨hus, hvs⟩ := List.forall_mem_append.mp hts
    exact isExpression_foldLinks (ihf hus) (ihl hvs)
  | noArguments => exact List.forall_mem_nil _
  | someArguments _ _ ihf iho =>
    obtain ⟨hus, hvs⟩ := List.forall_mem_append.mp hts
    exact List.forall_mem_cons.mpr ⟨ihf hus, iho hvs⟩
  | noMoreArguments => exact List.forall_mem_nil _
  | moreArguments _ _ _ ihn iho =>
    simp only [List.forall_mem_cons, List.forall_mem_append] at hts
    exact List.forall_mem_cons.mpr ⟨ihn hts.2.1, iho hts.2.2⟩

theorem MoreParametersSpelled.isName (h : MoreParametersSpelled names ts)
    (hts : ∀ t ∈ ts, Shaped t.form) : ∀ name ∈ names, IsName name := by
  induction h with
  | nil => exact List.forall_mem_nil _
  | cons _ hn _ ih =>
    simp only [List.forall_mem_cons] at hts
    exact List.forall_mem_cons.mpr ⟨hts.2.1.isName hn, ih hts.2.2⟩

theorem ParametersSpelled.isName (h : ParametersSpelled names ts)
    (hts : ∀ t ∈ ts, Shaped t.form) : ∀ name ∈ names, IsName name := by
  cases h with
  | nil => exact List.forall_mem_nil _
  | cons hn hmore =>
    obtain ⟨hname, hrest⟩ := List.forall_mem_cons.mp hts
    exact List.forall_mem_cons.mpr ⟨hname.isName hn, hmore.isName hrest⟩

theorem Clause.Spelled.formed {clause : Clause} (h : clause.Spelled ts)
    (hts : ∀ t ∈ ts, Shaped t.form) : clause.Formed := by
  induction h with
  | functionDecl _ hn _ hp _ _ ih =>
    simp only [List.forall_mem_cons, List.forall_mem_append] at hts
    exact .functionDecl (hts.2.1.isName hn) (hp.isName hts.2.2.2.1) (ih hts.2.2.2.2.2)
  | ifStatement _ hc _ ih =>
    simp only [List.forall_mem_cons, List.forall_mem_append] at hts
    exact .ifStatement (hc.formed hts.2.1) (ih hts.2.2)
  | print _ _ ha _ =>
    simp only [List.forall_mem_cons, List.forall_mem_append] at hts
    exact .print (ha.formed hts.2.2.1)
  | call hf _ ha _ =>
    simp only [List.forall_mem_cons, List.forall_mem_append] at hts
    exact .functionCall (hts.1.isName hf) (ha.formed hts.2.2.1)
  | compoundAssignment _ ho _ =>
    -- The operator of a compound assignment is the one token that no source has.
    have := hts _ (.tail _ (.head _))
    rw [ho] at this
    exact absurd this not_shaped_compound
  | assignment hx _ hv =>
    simp only [List.forall_mem_cons] at hts
    exact .assignment (hts.1.isName hx) (hv.formed hts.2.2)
  | noStatements => exact List.forall_mem_nil _
  | statements _ _ ihf iho =>
    obtain ⟨hus, hvs⟩ := List.forall_mem_append.mp hts
    exact List.forall_mem_cons.mpr ⟨ihf hus, iho hvs⟩
  | block _ _ _ ih =>
    simp only [List.forall_mem_cons, List.forall_mem_append] at hts
    exact ih hts.2.1

end Grammar

/-! ## Shapes that well-formed trees need -/

theorem shaped_of_isNumber {value : String} (h : IsNumber value) : Shaped (.literal, value) :=
  ⟨h.1, h.2, not_false⟩

theorem shaped_of_isName (h : IsName name) : Shaped (.identifier, name) := by
  refine ⟨?_, h.1, h.2, not_false⟩
  rintro rfl
  obtain ⟨c, cs, hnil, _⟩ := h.1
  cases hnil

theorem shaped_of_mem_operators (h : operator ∈ tier.operators) :
    Shaped (.operator, operator) := by
  have shapes : operator ≠ "" ∧ operator ∈ ["=", "+", "-", "*", "/", ".."] := by
    cases tier <;> revert operator <;> decide
  exact shapes

theorem shaped_equals : Shaped (.operator, "=") :=
  ⟨by simp, .head _⟩

/-- Every reserved word is a word. -/
theorem isWord_of_mem_keywords (h : name ∈ keywords) : IsWord name := by
  simp only [keywords, List.mem_cons, List.not_mem_nil, or_false] at h
  rcases h with rfl | rfl | rfl | rfl | rfl | rfl
  all_goals exact ⟨_, _, rfl, rfl, List.all_eq_true.mp rfl⟩

theorem shaped_of_mem_keywords (h : name ∈ keywords) : Shaped (.keyword, name) := by
  refine ⟨?_, isWord_of_mem_keywords h, h, not_false⟩
  rintro rfl
  revert h
  decide

theorem shaped_openParen : Shaped openParen.form :=
  ⟨by decide, .inl rfl⟩

theorem shaped_close : Shaped close.form :=
  ⟨by decide, .inr rfl⟩

theorem shaped_openBrace : Shaped openBrace.form :=
  ⟨by decide, .inl rfl⟩

theorem shaped_closeBrace : Shaped closeBrace.form :=
  ⟨by decide, .inr rfl⟩

theorem shaped_comma : Shaped (.unknown, ",") :=
  ⟨by simp, ',', rfl, rfl, rfl, rfl, by simp⟩

/-! ## Well-formed expressions are spelled -/

/-- Some tokens with the shapes of their classes satisfy `L`. -/
def Spellable (L : List Token → Prop) : Prop :=
  ∃ ts, L ts ∧ ∀ t ∈ ts, Shaped t.form

namespace Spellable

theorem imp {L M : List Token → Prop} (h : Spellable L) (hLM : ∀ ts, L ts → M ts) :
    Spellable M := by
  obtain ⟨ts, hs, hts⟩ := h
  exact ⟨ts, hLM ts hs, hts⟩

theorem operand (h : Spellable (Phrase.primary tree).Spelled) (tier : Tier) :
    Spellable (Phrase.operand tier tree).Spelled :=
  h.imp fun _ hs => hs.toOperand tier

theorem expression (h : Spellable (Phrase.primary tree).Spelled) :
    Spellable (Phrase.chain .sum tree).Spelled :=
  h.imp fun _ hs => hs.toExpression

/-- A chain of the tight tier is a chain of the loose one. -/
theorem toSum (h : Spellable (Phrase.chain tier tree).Spelled) :
    Spellable (Phrase.chain .sum tree).Spelled := by
  cases tier with
  | sum => exact h
  | product => exact h.imp fun _ hs => (Phrase.Spelled.term hs).toChain

/-- In parentheses every chain is an operand. -/
theorem group (h : Spellable (Phrase.chain .sum tree).Spelled) :
    Spellable (Phrase.primary tree).Spelled := by
  obtain ⟨ts, hs, hts⟩ := h
  refine ⟨openParen :: (ts ++ [close]), .group rfl hs rfl, ?_⟩
  simp only [List.forall_mem_cons, List.forall_mem_append]
  exact ⟨shaped_openParen, hts, shaped_close, List.forall_mem_nil _⟩

theorem binaryOp {left right : Node} (hl : Spellable (Phrase.primary left).Spelled)
    (ho : operator ∈ tier.operators) (hr : Spellable (Phrase.primary right).Spelled) :
    Spellable (Phrase.chain tier (.binaryOp left operator right)).Spelled := by
  obtain ⟨us, hus, hus'⟩ := hl.operand tier
  obtain ⟨vs, hvs, hvs'⟩ := hr.operand tier
  let o : Token := ⟨.operator, operator, 0⟩
  refine ⟨us ++ o :: (vs ++ []), .chain hus (.link (o := o) rfl ho hvs .noLinks), ?_⟩
  simp only [List.forall_mem_cons, List.forall_mem_append]
  exact ⟨hus', shaped_of_mem_operators ho, hvs', List.forall_mem_nil _⟩

theorem moreArguments (h : ∀ arg ∈ args, Spellable (Phrase.primary arg).Spelled) :
    Spellable (Phrase.moreArguments args).Spelled := by
  induction args with
  | nil => exact ⟨[], .noMoreArguments, List.forall_mem_nil _⟩
  | cons arg args ih =>
    obtain ⟨harg, hargs⟩ := List.forall_mem_cons.mp h
    obtain ⟨us, hus, hus'⟩ := harg.expression
    obtain ⟨vs, hvs, hvs'⟩ := ih hargs
    let comma : Token := ⟨.unknown, ",", 0⟩
    refine ⟨comma :: (us ++ vs), .moreArguments rfl hus hvs, ?_⟩
    simp only [List.forall_mem_cons, List.forall_mem_append]
    exact ⟨shaped_comma, hus', hvs'⟩

theorem arguments (h : ∀ arg ∈ args, Spellable (Phrase.primary arg).Spelled) :
    Spellable (Phrase.arguments args).Spelled := by
  cases args with
  | nil => exact ⟨[], .noArguments, List.forall_mem_nil _⟩
  | cons arg args =>
    obtain ⟨harg, hargs⟩ := List.forall_mem_cons.mp h
    obtain ⟨us, hus, hus'⟩ := harg.expression
    obtain ⟨vs, hvs, hvs'⟩ := moreArguments hargs
    exact ⟨us ++ vs, .someArguments hus hvs, List.forall_mem_append.mpr ⟨hus', hvs'⟩⟩

end Spellable

/-- Every tree of an expression is spelled as an operand. The tree of an operation needs
parentheses for that, whatever the operands are. -/
theorem IsExpression.spellable (h : IsExpression tree) :
    Spellable (Phrase.primary tree).Spelled := by
  induction h with
  | @number value hv =>
    let t : Token := ⟨.literal, value, 0⟩
    exact ⟨[t], .number (t := t) rfl, List.forall_mem_singleton.mpr (shaped_of_isNumber hv)⟩
  | @identifier name hn =>
    let t : Token := ⟨.identifier, name, 0⟩
    exact ⟨[t], .name (t := t) rfl, List.forall_mem_singleton.mpr (shaped_of_isName hn)⟩
  | @functionCall callee args hn _ ih =>
    obtain ⟨ts, hs, hts⟩ := Spellable.arguments ih
    let f : Token := ⟨.identifier, callee, 0⟩
    refine ⟨f :: openParen :: (ts ++ [close]), .call (f := f) rfl rfl hs rfl, ?_⟩
    simp only [List.forall_mem_cons, List.forall_mem_append]
    exact ⟨shaped_of_isName hn, shaped_openParen, hts, shaped_close, List.forall_mem_nil _⟩
  | @binaryOp left right operator _ ho _ ihl ihr =>
    obtain ⟨tier, htier⟩ := Tier.exists_mem_operators_iff.mpr ho
    exact (ihl.binaryOp htier ihr).toSum.group

/-! ## Well-formed statements are spelled -/

namespace Spellable

theorem moreParameters (h : ∀ name ∈ names, IsName name) :
    Spellable (MoreParametersSpelled names) := by
  induction names with
  | nil => exact ⟨[], .nil, List.forall_mem_nil _⟩
  | cons name names ih =>
    obtain ⟨hname, hnames⟩ := List.forall_mem_cons.mp h
    obtain ⟨ts, hs, hts⟩ := ih hnames
    let comma : Token := ⟨.unknown, ",", 0⟩
    let n : Token := ⟨.identifier, name, 0⟩
    refine ⟨comma :: n :: ts, .cons (n := n) rfl rfl hs, ?_⟩
    simp only [List.forall_mem_cons]
    exact ⟨shaped_comma, shaped_of_isName hname, hts⟩

theorem parameters (h : ∀ name ∈ names, IsName name) : Spellable (ParametersSpelled names) := by
  cases names with
  | nil => exact ⟨[], .nil, List.forall_mem_nil _⟩
  | cons name names =>
    obtain ⟨hname, hnames⟩ := List.forall_mem_cons.mp h
    obtain ⟨ts, hs, hts⟩ := moreParameters hnames
    let n : Token := ⟨.identifier, name, 0⟩
    refine ⟨n :: ts, .cons (n := n) rfl hs, ?_⟩
    exact List.forall_mem_cons.mpr ⟨shaped_of_isName hname, hts⟩

theorem statements (h : ∀ tree ∈ trees, Spellable (Clause.statement tree).Spelled) :
    Spellable (Clause.statements trees).Spelled := by
  induction trees with
  | nil => exact ⟨[], .noStatements, List.forall_mem_nil _⟩
  | cons tree trees ih =>
    obtain ⟨⟨us, hus, hus'⟩, htrees⟩ := List.forall_mem_cons.mp h
    obtain ⟨vs, hvs, hvs'⟩ := ih htrees
    exact ⟨us ++ vs, .statements hus hvs, List.forall_mem_append.mpr ⟨hus', hvs'⟩⟩

theorem block (h : ∀ tree ∈ trees, Spellable (Clause.statement tree).Spelled) :
    Spellable (Clause.block trees).Spelled := by
  obtain ⟨ts, hs, hts⟩ := statements h
  refine ⟨openBrace :: (ts ++ [closeBrace]), .block rfl hs rfl, ?_⟩
  simp only [List.forall_mem_cons, List.forall_mem_append]
  exact ⟨shaped_openBrace, hts, shaped_closeBrace, List.forall_mem_nil _⟩

end Spellable

theorem IsStatement.spellable (h : IsStatement tree) :
    Spellable (Clause.statement tree).Spelled := by
  induction h with
  | @assignment target value hn hv =>
    obtain ⟨ts, hs, hts⟩ := hv.spellable.expression
    let x : Token := ⟨.identifier, target, 0⟩
    let o : Token := ⟨.operator, "=", 0⟩
    refine ⟨x :: o :: ts, .assignment (x := x) rfl rfl hs, ?_⟩
    simp only [List.forall_mem_cons]
    exact ⟨shaped_of_isName hn, shaped_equals, hts⟩
  | @functionCall callee args hn hargs =>
    obtain ⟨ts, hs, hts⟩ := Spellable.arguments fun arg harg => (hargs arg harg).spellable
    let f : Token := ⟨.identifier, callee, 0⟩
    refine ⟨f :: openParen :: (ts ++ [close]), .call (f := f) rfl rfl hs rfl, ?_⟩
    simp only [List.forall_mem_cons, List.forall_mem_append]
    exact ⟨shaped_of_isName hn, shaped_openParen, hts, shaped_close, List.forall_mem_nil _⟩
  | @print argument ha =>
    obtain ⟨ts, hs, hts⟩ := ha.spellable.expression
    refine ⟨printWord :: openParen :: (ts ++ [close]), .print rfl rfl hs rfl, ?_⟩
    simp only [List.forall_mem_cons, List.forall_mem_append]
    exact ⟨shaped_of_mem_keywords (by decide), shaped_openParen, hts, shaped_close,
      List.forall_mem_nil _⟩
  | @functionDecl name parameters body hn hparams _ ih =>
    obtain ⟨us, hus, hus'⟩ := Spellable.parameters hparams
    obtain ⟨vs, hvs, hvs'⟩ := Spellable.block ih
    let k : Token := ⟨.keyword, "fn", 0⟩
    let n : Token := ⟨.identifier, name, 0⟩
    refine ⟨k :: n :: openParen :: (us ++ close :: vs),
      .functionDecl (n := n) rfl rfl rfl hus rfl hvs, ?_⟩
    simp only [List.forall_mem_cons, List.forall_mem_append]
    exact ⟨shaped_of_mem_keywords (by decide), shaped_of_isName hn, shaped_openParen, hus',
      shaped_close, hvs'⟩
  | @ifStatement condition body hc _ ih =>
    obtain ⟨us, hus, hus'⟩ := hc.spellable.expression
    obtain ⟨vs, hvs, hvs'⟩ := Spellable.block ih
    let k : Token := ⟨.keyword, "if", 0⟩
    refine ⟨k :: (us ++ vs), .ifStatement rfl hus hvs, ?_⟩
    simp only [List.forall_mem_cons, List.forall_mem_append]
    exact ⟨shaped_of_mem_keywords (by decide), hus', hvs'⟩

/-! ## Source texts -/

theorem wellFormed_of_parseSource {source : String} {p : Program}
    (h : parseSource source = .ok p) : WellFormed p :=
  Clause.Spelled.formed (derives_of_parse h) fun _ => shaped_of_mem_scan

/-- **The programs of source texts** are the well-formed ones. -/
theorem exists_parseSource_iff_wellFormed (p : Program) :
    (∃ source, parseSource source = .ok p) ↔ WellFormed p := by
  constructor
  · rintro ⟨source, h⟩
    exact wellFormed_of_parseSource h
  · intro h
    obtain ⟨ts, hs, hts⟩ := Spellable.statements fun tree htree => (h tree htree).spellable
    have hforms : ∀ form ∈ ts.map Token.form, Shaped form := by
      simpa using hts
    -- The source has the forms of these tokens, and parsing sees no more of them.
    obtain ⟨source, hscan⟩ := exists_scan_iff.mpr hforms
    exact ⟨source, parse_of_derives (Clause.Spelled.alike hs hscan)⟩

end Pocl
