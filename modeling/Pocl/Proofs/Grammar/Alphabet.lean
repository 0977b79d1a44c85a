import Pocl.Proofs.Grammar.Derivation

/-!
# The alphabet of the grammar

A production takes a name, a number, a separator, or one of the words and signs that the grammar
knows by their text. No other token stands anywhere in a derived list, however deep the place.

## Main definitions

* `terminals`: the words and signs that the grammar knows by their text
* `InAlphabet form`: some production takes a token of that form
* `OverAlphabet ts`: every token of the list has a form of the alphabet

## Main results

* `Phrase.Spelled.overAlphabet`, `Clause.Spelled.overAlphabet`: derived lists are over the alphabet
-/

namespace Pocl.Grammar

variable {form : TokenKind × String} {tier : Tier} {names : List String} {ts us : List Token}
  {t : Token}

/-! ## Forms -/

/-- The words and signs that the grammar knows by their text. -/
def terminals : List (TokenKind × String) :=
  [(.keyword, "fn"), (.keyword, "if"), (.keyword, "print"),
    (.operator, "="), (.operator, "+="), (.operator, "+"), (.operator, "-"), (.operator, "*"),
    (.operator, "/"), (.paren, "("), (.paren, ")"), (.brace, "\x7b"), (.brace, "\x7d")]

/-- Some production takes a token of that form: a number, a name, a separator of any class, or a
token that is known by its text. -/
def InAlphabet (form : TokenKind × String) : Prop :=
  form.1 = .literal ∨ form.1 = .identifier ∨ form.2 = "," ∨ form ∈ terminals

theorem InAlphabet.of_literal (h : t.kind = .literal) : InAlphabet t.form :=
  .inl h

theorem InAlphabet.of_identifier (h : t.kind = .identifier) : InAlphabet t.form :=
  .inr (.inl h)

theorem InAlphabet.of_separator (h : t.lexeme = ",") : InAlphabet t.form :=
  .inr (.inr (.inl h))

theorem InAlphabet.of_terminal (h : t.form = form) (hf : form ∈ terminals) : InAlphabet t.form :=
  .inr (.inr (.inr (h ▸ hf)))

theorem mem_terminals_of_mem_operators : ∀ tier : Tier, ∀ operator ∈ tier.operators,
    (.operator, operator) ∈ terminals
  | .sum => by decide
  | .product => by decide

theorem InAlphabet.of_operator (h : t.kind = .operator) (ho : t.lexeme ∈ tier.operators) :
    InAlphabet t.form :=
  .of_terminal (congrArg (·, t.lexeme) h) (mem_terminals_of_mem_operators tier _ ho)

/-! ## Token lists -/

/-- Every token of the list has a form of the alphabet. -/
def OverAlphabet (ts : List Token) : Prop :=
  ∀ t ∈ ts, InAlphabet t.form

theorem overAlphabet_nil : OverAlphabet [] :=
  List.forall_mem_nil _

theorem OverAlphabet.cons (ht : InAlphabet t.form) (hts : OverAlphabet ts) :
    OverAlphabet (t :: ts) :=
  List.forall_mem_cons.mpr ⟨ht, hts⟩

theorem OverAlphabet.append (hts : OverAlphabet ts) (hus : OverAlphabet us) :
    OverAlphabet (ts ++ us) :=
  List.forall_mem_append.mpr ⟨hts, hus⟩

/-- Brackets of the grammar around tokens. -/
theorem OverAlphabet.bracket {l r : Token} (hl : InAlphabet l.form) (hts : OverAlphabet ts)
    (hr : InAlphabet r.form) : OverAlphabet (l :: (ts ++ [r])) :=
  .cons hl (hts.append (.cons hr overAlphabet_nil))

/-! ## Derivations -/

theorem Phrase.Spelled.overAlphabet {phrase : Phrase} (h : phrase.Spelled ts) :
    OverAlphabet ts := by
  induction h with
  | number ht => exact .cons (.of_literal ht) overAlphabet_nil
  | name ht => exact .cons (.of_identifier ht) overAlphabet_nil
  | call hf hl _ hr ih =>
    exact .cons (.of_identifier hf)
      (.bracket (.of_terminal hl (by decide)) ih (.of_terminal hr (by decide)))
  | group hl _ hr ih =>
    exact .bracket (.of_terminal hl (by decide)) ih (.of_terminal hr (by decide))
  | term _ ih => exact ih
  | factor _ ih => exact ih
  | noLinks => exact overAlphabet_nil
  | link ho hmem _ _ ihr ihl => exact .cons (.of_operator ho hmem) (ihr.append ihl)
  | chain _ _ ihf ihl => exact ihf.append ihl
  | noArguments => exact overAlphabet_nil
  | someArguments _ _ ihf iho => exact ihf.append iho
  | noMoreArguments => exact overAlphabet_nil
  | moreArguments hs _ _ ihn iho => exact .cons (.of_separator hs) (ihn.append iho)

theorem MoreParametersSpelled.overAlphabet (h : MoreParametersSpelled names ts) :
    OverAlphabet ts := by
  induction h with
  | nil => exact overAlphabet_nil
  | cons hs hn _ ih => exact .cons (.of_separator hs) (.cons (.of_identifier hn) ih)

theorem ParametersSpelled.overAlphabet (h : ParametersSpelled names ts) : OverAlphabet ts := by
  cases h with
  | nil => exact overAlphabet_nil
  | cons hn hmore => exact .cons (.of_identifier hn) hmore.overAlphabet

theorem Clause.Spelled.overAlphabet {clause : Clause} (h : clause.Spelled ts) :
    OverAlphabet ts := by
  induction h with
  | functionDecl hk hn hl hp hr _ ih =>
    exact .cons (.of_terminal hk (by decide)) (.cons (.of_identifier hn)
      (.cons (.of_terminal hl (by decide))
        (hp.overAlphabet.append (.cons (.of_terminal hr (by decide)) ih))))
  | ifStatement hk hc _ ih =>
    exact .cons (.of_terminal hk (by decide)) (hc.overAlphabet.append ih)
  | print hk hl ha hr =>
    exact .cons (.of_terminal hk (by decide))
      (.bracket (.of_terminal hl (by decide)) ha.overAlphabet (.of_terminal hr (by decide)))
  | call hf hl ha hr =>
    exact .cons (.of_identifier hf)
      (.bracket (.of_terminal hl (by decide)) ha.overAlphabet (.of_terminal hr (by decide)))
  | compoundAssignment hx ho hv =>
    exact .cons (.of_identifier hx) (.cons (.of_terminal ho (by decide)) hv.overAlphabet)
  | assignment hx ho hv =>
    exact .cons (.of_identifier hx) (.cons (.of_terminal ho (by decide)) hv.overAlphabet)
  | noStatements => exact overAlphabet_nil
  | statements _ _ ihf iho => exact ihf.append iho
  | block ho _ hc ih =>
    exact .bracket (.of_terminal ho (by decide)) ih (.of_terminal hc (by decide))

end Pocl.Grammar
