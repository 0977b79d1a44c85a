import Pocl.Proofs.Grammar.Sequence

/-!
# Blocks and programs

The statements of a block are read by a loop of their own, which a closing brace ends and not the
end of the input. Between its braces a block is a program all the same: the body is what the tokens
spell at the top level, and a token that is refused there is refused inside a block. Only a closing
brace makes a difference, as it ends the block where it stands.

## Main definitions

* `BlockHeader make hs`: the tokens before the block of a statement, with the statement that a body
  makes

## Main results

* `closedBody_eq_ok_iff`: a closed body is a program
* `closedBody_of_statements_error`: a token that is refused in a program is refused in a body
* `parse_header_iff`, `parse_header_of_error`: both for a statement with a block
* `blocks_read_as_programs`: both for a function without parameters and for a conditional
-/

namespace Pocl

open Grammar Rule

variable {ts us vs hs : List Token} {o c t : Token} {body : List Node} {make : List Node → Node}
  {e : ParseError} {x : Option Expected}

/-! ## Bodies -/

namespace Grammar

namespace Rule

theorem block_cons (ho : o.form = (.brace, "\x7b")) : erase block (o :: us) = closedBody us := by
  rw [block_eq]
  exact bind_of_ok (expect_cons ho)

/-- A body that the last token closes is a program, and nothing else is. -/
theorem closedBody_eq_ok_iff (hc : c.form = (.brace, "\x7d")) :
    closedBody (ts ++ [c]) = .ok body [] ↔ (Clause.statements body).Spelled ts := by
  constructor
  · intro h
    have hblock : erase block (openBrace :: (ts ++ [c])) = .ok body [] := (block_cons rfl).trans h
    have ht := (takes_statements (openBrace :: (ts ++ [c]))).block
    rw [Takes, Covers, hblock] at ht
    obtain ⟨used, hused, hspelled⟩ := ht
    rw [List.append_nil] at hused
    cases hspelled with
    | block _ hbody _ =>
      obtain rfl := List.append_inj_left' (List.cons.inj hused).2 rfl
      exact hbody
  · intro h
    exact (bind_of_ok (h.read.1 c [] hc)).trans (bind_of_ok (expect_cons hc))

/-- A statement does not begin with a closing brace. -/
theorem statement_of_closing (h : t.form = (.brace, "\x7d")) :
    erase statement (t :: us) = .error none (t :: us) :=
  statement_of_other (by simp [h]) (by simp [kind_of_form h])

/-- A token that is refused in a program is refused in a body alike, unless it closes the body. -/
theorem closedBody_of_statements_error {ts : List Token}
    (h : Rule.statements ts = .error x (t :: us)) (ht : t.form ≠ (.brace, "\x7d"))
    (vs : List Token) :
    closedBody (ts ++ vs) = .error x (t :: us ++ vs) := by
  cases ts with
  | nil =>
    rw [statements_eq] at h
    cases h
  | cons a as =>
    have hsettled := (stepwise_settled.onStatements (a :: as)).statement
    rw [statements_cons, bind_eq_error_iff] at h
    have ha : a.form ≠ (.brace, "\x7d") := by
      intro ha
      rw [statement_of_closing ha] at h
      rcases h with h | ⟨first, rest, h, -⟩
      · cases h
        exact ht ha
      · cases h
    rw [List.cons_append, closedBody_open ha, ← List.cons_append]
    rcases h with h | ⟨first, rest, hfirst, h⟩
    · exact bind_of_error (hsettled.error_append_right h rfl)
    · have hlt := length_rest_lt_of_erase hfirst
      obtain h | ⟨others, ws, -, h⟩ := bind_eq_error_iff.mp h
      · -- There is a next statement, so that the first one ends before the same token.
        have hnext : next (rest ++ vs) = next rest := by
          cases rest with
          | nil => rw [statements_eq] at h; cases h
          | cons b bs => rfl
        refine (bind_of_ok (hsettled.ok_append_right hfirst hnext)).trans ?_
        exact bind_of_error (closedBody_of_statements_error h ht vs)
      · cases h
termination_by ts.length

end Rule

/-! ## Headers -/

/-- The tokens before the block of a statement, with the statement that a body makes. -/
inductive BlockHeader : (List Node → Node) → List Token → Prop where
  | functionDecl {header : String × List String} {hs : List Token} :
      HeaderSpelled header hs → BlockHeader (.functionDecl header.1 header.2) hs
  | ifStatement {k : Token} {us : List Token} {condition : Node} :
      k.form = (.keyword, "if") → (Phrase.chain .sum condition).Spelled us →
      BlockHeader (.ifStatement condition) (k :: us)

theorem BlockHeader.make_inj {body' : List Node} (h : BlockHeader make hs)
    (heq : make body = make body') : body = body' := by
  cases h with
  | functionDecl => exact (Node.functionDecl.inj heq).2.2
  | ifStatement => exact (Node.ifStatement.inj heq).2

/-- A header and a block spell a statement. -/
theorem BlockHeader.statement (h : BlockHeader make hs) (hb : (Clause.block body).Spelled us) :
    (Clause.statement (make body)).Spelled (hs ++ us) := by
  cases h with
  | functionDecl hheader =>
    obtain ⟨k, n, l, r, ps, rfl, hk, hn, hname, hl, hp, hr⟩ := hheader
    rw [hname]
    simpa using Clause.Spelled.functionDecl hk hn hl hp hr hb
  | ifStatement hk hcondition => exact .ifStatement hk hcondition hb

/-- After a header the block is read, and the statement is made of its body. -/
theorem BlockHeader.read (h : BlockHeader make hs) (ho : o.form = (.brace, "\x7b")) :
    erase Grammar.statement (hs ++ o :: us) =
      (closedBody >>= fun body => pure (make body)) us := by
  cases h with
  | functionDecl hheader =>
    obtain ⟨k, n, l, r, ps, rfl, hk, hn, hname, hl, hp, hr⟩ := hheader
    rw [hname, List.cons_append, List.cons_append, List.cons_append, List.append_assoc,
      List.singleton_append, statement_of_fn hk, erase_functionDecl]
    refine (bind_of_ok (functionHeader_append hk hn hl hp hr)).trans ?_
    exact bind_congr_of_eq (block_cons ho)
  | ifStatement hk hcondition =>
    rw [List.cons_append, statement_of_if hk, erase_ifStatement]
    refine (bind_of_ok (expect_cons hk)).trans ?_
    refine (bind_of_ok (hcondition.read _ (ends_of_brace ho))).trans ?_
    exact bind_congr_of_eq (block_cons ho)

theorem BlockHeader.exists_cons (h : BlockHeader make hs) : ∃ t us, hs = t :: us := by
  cases h with
  | functionDecl hheader =>
    obtain ⟨k, n, l, r, us, rfl, -⟩ := hheader
    exact ⟨k, _, rfl⟩
  | ifStatement => exact ⟨_, _, rfl⟩

end Grammar

/-- The body of a statement is the program that stands between its braces. -/
theorem parse_header_iff (h : BlockHeader make hs) (ho : o.form = (.brace, "\x7b"))
    (hc : c.form = (.brace, "\x7d")) :
    parse (hs ++ o :: (ts ++ [c])) = .ok ⟨[make body]⟩ ↔ parse ts = .ok ⟨body⟩ := by
  rw [parse_eq_single_iff]
  constructor
  · intro hspelled
    have hread := hspelled.read [] ends_nil
    rw [List.append_nil, h.read ho] at hread
    obtain ⟨body', rest, hbody, hmake⟩ := bind_eq_ok_iff.mp hread
    obtain ⟨heq, rfl⟩ := EStateM.Result.ok.inj hmake
    obtain rfl := h.make_inj heq
    exact parse_of_derives ((closedBody_eq_ok_iff hc).mp hbody)
  · intro hp
    exact h.statement (.block ho (derives_of_parse hp) hc)

/-- A token that is refused in a program is refused in a block alike, unless it closes the block. -/
theorem parse_header_of_error (h : BlockHeader make hs) (ho : o.form = (.brace, "\x7b"))
    (he : parse ts = .error e) (hfound : e.found = some t) (ht : t.form ≠ (.brace, "\x7d")) :
    parse (hs ++ o :: (ts ++ us)) = .error e := by
  obtain ⟨x, rest, hr, rfl⟩ := parse_eq_error_iff_statements.mp he
  obtain ⟨vs, rfl⟩ := List.head?_eq_some_iff.mp ((Failure.found_error _).symm.trans hfound)
  have hstatement : erase statement (hs ++ o :: (ts ++ us)) = .error x (t :: vs ++ us) :=
    (h.read ho).trans (bind_of_error (closedBody_of_statements_error hr ht us))
  obtain ⟨k, ks, rfl⟩ := h.exists_cons
  apply parse_eq_error_iff_statements.mpr
  exact ⟨x, t :: vs ++ us, statements_cons.trans (bind_of_error hstatement), rfl⟩

/-- **Blocks read as programs.** Between the braces of a function without parameters and of a
conditional stands a program, and their bodies are its statements. A token that is refused in the
program is refused in both blocks with the same error, unless it is a closing brace. -/
theorem blocks_read_as_programs (ts : List Token) (name number : String) {fn cond : List Token}
    {c c' : Token}
    (hfn : fn.map Token.form = [(.keyword, "fn"), (.identifier, name), (.paren, "("),
      (.paren, ")"), (.brace, "\x7b")])
    (hcond : cond.map Token.form = [(.keyword, "if"), (.literal, number), (.brace, "\x7b")])
    (hc : c.form = (.brace, "\x7d")) (hc' : c'.form = (.brace, "\x7d")) :
    (∀ body, (parse ts = .ok ⟨body⟩ ↔
          parse (fn ++ ts ++ [c]) = .ok ⟨[.functionDecl name [] body]⟩) ∧
        (parse ts = .ok ⟨body⟩ ↔
          parse (cond ++ ts ++ [c']) = .ok ⟨[.ifStatement (.number number) body]⟩)) ∧
      ∀ e t, parse ts = .error e → e.found = some t → t.form ≠ (.brace, "\x7d") →
        parse (fn ++ ts ++ [c]) = .error e ∧ parse (cond ++ ts ++ [c']) = .error e := by
  simp only [List.map_eq_cons_iff, List.map_eq_nil_iff] at hfn hcond
  obtain ⟨k, -, rfl, hk, n, -, rfl, hn, l, -, rfl, hl, r, -, rfl, hr, o, -, rfl, ho, rfl⟩ := hfn
  obtain ⟨k', -, rfl, hk', v, -, rfl, hv, o', -, rfl, ho', rfl⟩ := hcond
  obtain ⟨hname, rfl⟩ := Prod.mk.inj hn
  obtain ⟨hnumber, rfl⟩ := Prod.mk.inj hv
  have hheader : HeaderSpelled (n.lexeme, []) [k, n, l, r] :=
    ⟨k, n, l, r, [], rfl, hk, hname, rfl, hl, .nil, hr⟩
  have hfn : BlockHeader (.functionDecl n.lexeme []) [k, n, l, r] := .functionDecl hheader
  have hcond : BlockHeader (.ifStatement (.number v.lexeme)) [k', v] :=
    .ifStatement hk' (Phrase.Spelled.number hnumber).toExpression
  refine ⟨fun body => ⟨(parse_header_iff hfn ho hc).symm, (parse_header_iff hcond ho' hc').symm⟩,
    fun e t he hfound ht => ⟨?_, ?_⟩⟩
  · exact parse_header_of_error hfn ho he hfound ht
  · exact parse_header_of_error hcond ho' he hfound ht

/-- `x = y` is a program and a body, and `x = )` is neither: both blocks refuse the parenthesis. -/
theorem blocks_around_assignment :
    let x : Token := ⟨.identifier, "x", 9⟩
    let s : Token := ⟨.operator, "=", 11⟩
    let y : Token := ⟨.identifier, "y", 13⟩
    let r : Token := ⟨.paren, ")", 13⟩
    let c : Token := ⟨.brace, "\x7d", 15⟩
    let fn : List Token := [⟨.keyword, "fn", 2⟩, ⟨.identifier, "f", 4⟩, ⟨.paren, "(", 5⟩,
      ⟨.paren, ")", 6⟩, ⟨.brace, "\x7b", 7⟩]
    let cond : List Token := [⟨.keyword, "if", 2⟩, ⟨.literal, "1", 4⟩, ⟨.brace, "\x7b", 7⟩]
    let body : List Node := [.assignment "x" (.identifier "y")]
    parse [x, s, y] = .ok ⟨body⟩ ∧
      parse (fn ++ [x, s, y] ++ [c]) = .ok ⟨[.functionDecl "f" [] body]⟩ ∧
      parse (cond ++ [x, s, y] ++ [c]) = .ok ⟨[.ifStatement (.number "1") body]⟩ ∧
      parse [x, s, r] = .error (.unexpected (some r)) ∧
      parse (fn ++ [x, s, r] ++ [c]) = .error (.unexpected (some r)) ∧
      parse (cond ++ [x, s, r] ++ [c]) = .error (.unexpected (some r)) := by
  intro x s y r c fn cond body
  have hbody : parse [x, s, y] = .ok ⟨body⟩ := by cbv
  have herror : parse [x, s, r] = .error (.unexpected (some r)) := by cbv
  have hr : r.form ≠ (.brace, "\x7d") := by decide
  have hread (ts : List Token) :=
    @blocks_read_as_programs ts "f" "1" fn cond c c rfl rfl rfl rfl
  obtain ⟨hfn, hcond⟩ := (hread [x, s, y]).1 body
  exact ⟨hbody, hfn.mp hbody, hcond.mp hbody, herror, (hread [x, s, r]).2 _ r herror rfl hr⟩

end Pocl
