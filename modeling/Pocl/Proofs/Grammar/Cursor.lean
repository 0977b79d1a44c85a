import Pocl.Proofs.Grammar.Refusal

/-!
# Rules with a cursor

A rule reads from the front of the tokens that are left. Seen from the whole list it moves a cursor,
from the first token of its own to the one after its last. What a rule answers depends on the
tokens between the two cursors and on whether the next token ends it: no list that agrees there can
be told apart, and an error is settled by the token that it reports.

## Main definitions

* `RuleName`: the rules that a cursor can be followed through
* `RuleName.readAt f ts a`: the answer of the rule at the cursor `a`, with the cursor it ends at

## Main results

* `RuleName.settled_read`: every rule is settled by the tokens it takes and the next one
* `RuleName.readAt_eq_of_agree`: a rule answers alike on lists that agree up to the token after its
  last one
* `one_token_of_lookahead`: the parser looks one token ahead, and the first error is final
-/

namespace Pocl

namespace Grammar

open Rule

/-- The rules of the grammar. -/
inductive RuleName where
  | statement
  | functionDecl
  | ifStatement
  | printStatement
  | assignmentOrCall
  | block
  | arguments
  | expression
  | chain (tier : Tier)
  | primary

namespace RuleName

/-- What a rule reads: the statements of a block, the arguments of a call, or one tree. -/
def Value : RuleName → Type
  | block | arguments => List Node
  | _ => Node

/-- The rule of that name. -/
def read : (f : RuleName) → (ts : List Token) → Answer f.Value ts.length
  | statement => Grammar.statement
  | functionDecl => Grammar.functionDecl
  | ifStatement => Grammar.ifStatement
  | printStatement => Grammar.printStatement
  | assignmentOrCall => Grammar.assignmentOrCall
  | block => Grammar.block
  | arguments => Grammar.arguments
  | expression => Grammar.expression
  | chain tier => Grammar.chain tier
  | primary => Grammar.primary

/-- The answer of the rule at the cursor `a`: a value or an error, with the cursor it ends at. -/
def readAt (f : RuleName) (ts : List Token) (a : Nat) :
    Except (ParseError × Nat) (f.Value × Nat) :=
  match f.read (ts.drop a) with
  | .ok p => .ok (p.value, ts.length - p.rest.length)
  | .error failure => .error (failure.error, ts.length - failure.rest.length)

variable {f : RuleName} {ts us used rest : List Token} {a b : Nat} {v : f.Value}

theorem settled_read (f : RuleName) (ts : List Token) : Settled f.Value (erase f.read) ts := by
  cases f with
  | statement => exact (stepwise_settled.onStatements ts).statement
  | functionDecl => exact (stepwise_settled.onStatements ts).functionDecl
  | ifStatement => exact (stepwise_settled.onStatements ts).ifStatement
  | printStatement => exact stepwise_settled.printStatement ts
  | assignmentOrCall => exact stepwise_settled.assignmentOrCall ts
  | block => exact (stepwise_settled.onStatements ts).block
  | arguments => exact (stepwise_settled.onExpressions ts).arguments
  | expression => exact (stepwise_settled.onExpressions ts).chain .sum
  | chain tier => exact (stepwise_settled.onExpressions ts).chain tier
  | primary => exact (stepwise_settled.onExpressions ts).primary

/-- Between the cursors stand the tokens that the rule takes, and it takes at least one. -/
theorem exists_taken_of_readAt_ok (h : f.readAt ts a = .ok (v, b)) :
    ∃ used, used ≠ [] ∧ b = a + used.length ∧ used ++ ts.drop b = ts.drop a ∧
      erase f.read (ts.drop a) = .ok v (ts.drop b) := by
  rw [readAt] at h
  cases hread : f.read (ts.drop a) with
  | error failure => rw [hread] at h; cases h
  | ok p =>
    rw [hread] at h
    cases h
    have herase : erase f.read (ts.drop a) = .ok p.value p.rest := by rw [erase, hread]; rfl
    obtain ⟨used, hsplit, -⟩ := (settled_read f _).of_ok herase
    have hlength : used.length + p.rest.length = ts.length - a := by
      rw [← List.length_append, hsplit, List.length_drop]
    have hlt : p.rest.length < ts.length - a := List.length_drop ▸ p.rest_lt
    have hcursor : ts.length - p.rest.length = a + used.length := by omega
    have hrest : ts.drop (a + used.length) = p.rest := by
      have hdrop := congrArg (List.drop used.length) hsplit
      rw [List.drop_left, List.drop_drop] at hdrop
      exact hdrop.symm
    rw [hcursor, hrest]
    exact ⟨used, List.ne_nil_of_length_pos (by omega), rfl, hsplit, herase⟩

theorem readAt_ok_of_erase (h : erase f.read (ts.drop a) = .ok v (ts.drop b))
    (hb : b ≤ ts.length) : f.readAt ts a = .ok (v, b) := by
  rw [erase] at h
  rw [readAt]
  cases hread : f.read (ts.drop a) with
  | error failure => rw [hread] at h; cases h
  | ok p =>
    rw [hread] at h
    obtain ⟨rfl, hrest⟩ := EStateM.Result.ok.inj h
    have hcursor : ts.length - p.rest.length = b := by
      rw [hrest, List.length_drop]
      omega
    exact congrArg (fun b => Except.ok (p.value, b)) hcursor

/-- A list that agrees with what stands between two cursors has the same tokens there. -/
theorem append_drop_of_agree (hsplit : used ++ rest = ts.drop a)
    (hagree : ∀ i, a ≤ i → i < a + used.length → us[i]? = ts[i]?) :
    used ++ us.drop (a + used.length) = us.drop a := by
  apply List.ext_getElem?
  intro i
  rw [List.getElem?_drop]
  rcases Nat.lt_or_ge i used.length with hi | hi
  · rw [List.getElem?_append_left hi, hagree (a + i) (by omega) (by omega), ← List.getElem?_drop,
      ← hsplit, List.getElem?_append_left hi]
  · rw [List.getElem?_append_right hi, List.getElem?_drop]
    congr 1
    omega

/-- **A rule sees one token more than it takes.** On a list that agrees with the first one from the
cursor on, up to the token after the last of the rule, it ends alike. -/
theorem readAt_eq_of_agree (h : f.readAt ts a = .ok (v, b))
    (hagree : ∀ i, a ≤ i → i < b → us[i]? = ts[i]?) (hnext : us[b]? = ts[b]?) :
    f.readAt us a = .ok (v, b) := by
  obtain ⟨used, hne, rfl, hsplit, hread⟩ := exists_taken_of_readAt_ok h
  have hsplit' := append_drop_of_agree hsplit hagree
  apply readAt_ok_of_erase
  · rw [← hsplit']
    apply (settled_read f _).ok_append hread hsplit (.refl _)
    rw [next, next, List.head?_drop, List.head?_drop, hnext]
  · -- The last token that the rule takes is there in the other list.
    have hlength := congrArg List.length hsplit'
    have hpos := List.length_pos_iff.mpr hne
    rw [List.length_append, List.length_drop, List.length_drop] at hlength
    omega

end RuleName

end Grammar

open Grammar Rule

variable {ts : List Token} {e : ParseError} {i : Nat} {t : Token}

/-- **The first error is final.** What follows the reported token does not matter. -/
theorem parse_take_append_of_error (h : parse ts = .error e) (hi : errorIndex? ts = some i)
    (ht : e.found = some t) (us : List Token) :
    ts[i]? = some t ∧ parse (ts.take (i + 1) ++ us) = .error e := by
  obtain ⟨x, used, rest, rfl, hr, rfl, hindex, -⟩ := exists_stop_of_parse_error h
  obtain rfl : used.length = i := Option.some.inj (hindex.symm.trans hi)
  obtain ⟨vs, rfl⟩ := List.head?_eq_some_iff.mp ((Failure.found_error _).symm.trans ht)
  have hr' : Rule.statements (used ++ t :: us) = .error x (t :: us) :=
    (stepwise_settled.statements _).error_append hr rfl (.refl _) rfl
  have herror := parse_of_statements_error hr'
  rw [List.take_length_add_append, List.append_assoc]
  exact ⟨by simp, herror⟩

/-- The parser looks one token ahead. An error is settled by the tokens up to the reported one, and
a rule that ends between two cursors ends alike on every list that agrees with the first one from
the first cursor up to the token at the second. -/
theorem one_token_of_lookahead :
    (∀ ts e i t, parse ts = .error e → errorIndex? ts = some i → e.found = some t →
      ∀ us, ts[i]? = some t ∧ parse (ts.take (i + 1) ++ us) = .error e) ∧
    ∀ (f : RuleName) ts a v b, f.readAt ts a = .ok (v, b) →
      ∀ us : List Token, (∀ i, a ≤ i → i < b → us[i]? = ts[i]?) → us[b]? = ts[b]? →
        f.readAt us a = .ok (v, b) :=
  ⟨fun _ _ _ _ => parse_take_append_of_error, fun _ _ _ _ _ h _ => RuleName.readAt_eq_of_agree h⟩

/-- `x = )` is refused at the parenthesis whatever follows it, and the argument of `f(1 + 2)` reads
alike as that of `print(1 + 2)`, before a statement or at the end. -/
theorem lookahead_of_sum :
    let x : Token := ⟨.identifier, "x", 1⟩
    let o : Token := ⟨.operator, "=", 3⟩
    let r : Token := ⟨.paren, ")", 5⟩
    let l : Token := ⟨.paren, "(", 6⟩
    let sum : List Token := [⟨.literal, "1", 7⟩, ⟨.operator, "+", 9⟩, ⟨.literal, "2", 11⟩]
    let ts : List Token := [⟨.identifier, "f", 5⟩, l] ++ sum ++ [r, x, o]
    let us : List Token := [⟨.keyword, "print", 5⟩, l] ++ sum ++ [r]
    let v : Node := .binaryOp (.number "1") "+" (.number "2")
    parse [x, o, r, l] = .error (.unexpected (some r)) ∧ errorIndex? [x, o, r, l] = some 2 ∧
      parse [x, o, r, x, x] = .error (.unexpected (some r)) ∧
      RuleName.expression.readAt ts 2 = .ok (v, 5) ∧ us[5]? = ts[5]? ∧
      RuleName.expression.readAt us 2 = .ok (v, 5) := by
  intro x o r l sum ts us v
  have h : parse [x, o, r, l] = .error (.unexpected (some r)) := by cbv
  have hindex : errorIndex? [x, o, r, l] = some 2 := by cbv
  have hread : RuleName.expression.readAt ts 2 = .ok (v, 5) := by cbv
  have hagree : ∀ i, 2 ≤ i → i < 5 → us[i]? = ts[i]? := by
    intro i hi hi'
    have : i = 2 ∨ i = 3 ∨ i = 4 := by omega
    rcases this with rfl | rfl | rfl <;> rfl
  exact ⟨h, hindex, (one_token_of_lookahead.1 _ _ 2 r h hindex rfl [x, x]).2, hread, rfl,
    one_token_of_lookahead.2 .expression ts 2 v 5 hread us hagree rfl⟩

end Pocl
