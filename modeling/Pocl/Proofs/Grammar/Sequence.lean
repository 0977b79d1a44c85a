import Mathlib.Data.List.Forall2
import Pocl.Proofs.Grammar.Refusal

/-!
# Statements in a row

Nothing separates statements, and still nothing is lost when programs are put one after another.
What has been read as statements stays as it is, as long as the token after it does not go on with
an expression, and parsing starts afresh there. So a program falls apart into its statements in
one way only: every other cut leaves a chunk that is not one statement.

## Main definitions

* `Token.ExtendsExpression`: the tokens that go on with an expression
* `IsCut ts chunks`: the chunks make up the list, and each one is a statement
* `ParseTo chunks trees`: the chunks parse to the statements, one to one

## Main results

* `Clause.Spelled.statements_append`: statements are read off the front of a list
* `parse_append`: programs concatenate
* `exists_cut_unique`: a program has one cut into statements
-/

namespace Pocl

open Grammar Rule

variable {ts us vs : List Token} {p : Program} {e : ParseError} {tree : Node} {trees : List Node}

/-! ## Single statements -/

/-- A list parses to one statement exactly where it spells that statement. -/
theorem parse_eq_single_iff : parse ts = .ok ⟨[tree]⟩ ↔ (Clause.statement tree).Spelled ts := by
  refine ⟨fun h => ?_, fun h => parse_of_derives ?_⟩
  · cases derives_of_parse h with
    | statements hf ho =>
      cases ho
      rwa [List.append_nil]
  · rw [← List.append_nil ts]
    exact .statements h .noStatements

/-! ## Concatenation -/

/-- The token can go on with an expression: it opens a call, or it is an operator. -/
def Token.ExtendsExpression (t : Token) : Prop :=
  t.form = (.paren, "(") ∨ t.kind = .operator ∧ t.lexeme ∈ ["+", "-", "*", "/"]

theorem ends_of_head? (h : ∀ t, us.head? = some t → ¬ t.ExtendsExpression) :
    Ends (Tier.sum.operators ++ Tier.sum.inner) (next us) := by
  intro kind lexeme hform
  obtain ⟨t, ht, hform⟩ := Option.map_eq_some_iff.mp hform
  obtain ⟨rfl, rfl⟩ := Prod.mk.inj hform
  have ht := not_or.mp (h t ht)
  exact ⟨fun ho => ht.1 (Prod.ext ho.1 ho.2), ht.2⟩

/-- Statements are read off the front of a list, and what follows them is read afresh. -/
theorem Grammar.Clause.Spelled.statements_append (h : (Clause.statements trees).Spelled ts)
    (hus : Ends (Tier.sum.operators ++ Tier.sum.inner) (next us)) :
    Rule.statements (ts ++ us) =
      (Rule.statements >>= fun others => pure (trees ++ others)) us := by
  induction trees generalizing ts with
  | nil =>
    cases h
    exact (congrFun (bind_pure Rule.statements) us).symm
  | cons first trees ih =>
    cases h with
    | @statements vs ws _ _ hf ho =>
      obtain ⟨t, vs, rfl, -⟩ := hf.starts
      have hfirst := hf.read (ws ++ us) (ho.ends_statements hus)
      rw [List.append_assoc, List.cons_append, statements_cons]
      refine (bind_of_ok hfirst).trans ?_
      refine (bind_congr_of_eq (ih ho)).trans ?_
      simp only [bind_assoc, pure_bind, List.cons_append]

/-- **Programs concatenate.** After an accepted list parsing starts afresh, unless the next token
goes on with an expression: the statements come one after another, and an error is that of the
second list. -/
theorem parse_append (hp : parse ts = .ok p)
    (hus : ∀ t, us.head? = some t → ¬ t.ExtendsExpression) :
    (Accepted (ts ++ us) ↔ Accepted us) ∧
      (∀ q, parse us = .ok q → parse (ts ++ us) = .ok ⟨p.statements ++ q.statements⟩) ∧
      ∀ e, parse us = .error e → parse (ts ++ us) = .error e := by
  have hread := (derives_of_parse hp).statements_append (ends_of_head? hus)
  have hok : ∀ q, parse us = .ok q → parse (ts ++ us) = .ok ⟨p.statements ++ q.statements⟩ := by
    intro q hq
    apply parse_eq_ok_iff_statements.mpr
    exact hread.trans (bind_of_ok (parse_eq_ok_iff_statements.mp hq))
  have herror : ∀ e, parse us = .error e → parse (ts ++ us) = .error e := by
    intro e he
    obtain ⟨x, rest, hr, he⟩ := parse_eq_error_iff_statements.mp he
    exact parse_eq_error_iff_statements.mpr ⟨x, rest, hread.trans (bind_of_error hr), he⟩
  refine ⟨⟨fun h => ?_, fun ⟨q, hq⟩ => ⟨_, hok q hq⟩⟩, hok, herror⟩
  rcases accepted_or_exists_error us with haccepted | ⟨e, he⟩
  · exact haccepted
  · exact absurd h (not_accepted_of_parse_error (herror e he))

/-- After `x = y` the program `f(1)` starts afresh, and so does `1`, which is no program. -/
theorem parse_append_of_call :
    let ts : List Token := [⟨.identifier, "x", 1⟩, ⟨.operator, "=", 3⟩, ⟨.identifier, "y", 5⟩]
    let n : Token := ⟨.literal, "1", 9⟩
    let us : List Token := [⟨.identifier, "f", 7⟩, ⟨.paren, "(", 8⟩, n, ⟨.paren, ")", 10⟩]
    let x : Node := .assignment "x" (.identifier "y")
    let f : Node := .functionCall "f" [.number "1"]
    parse ts = .ok ⟨[x]⟩ ∧ parse us = .ok ⟨[f]⟩ ∧ parse [n] = .error (.unexpected (some n)) ∧
      (∀ t, us.head? = some t → ¬ t.ExtendsExpression) ∧ parse (ts ++ us) = .ok ⟨[x, f]⟩ ∧
      (∀ t, [n].head? = some t → ¬ t.ExtendsExpression) ∧
      parse (ts ++ [n]) = .error (.unexpected (some n)) := by
  intro ts n us x f
  have hts : parse ts = .ok ⟨[x]⟩ := by cbv
  have hus : parse us = .ok ⟨[f]⟩ := by cbv
  have hn : parse [n] = .error (.unexpected (some n)) := by cbv
  have hf : ∀ t, us.head? = some t → ¬ t.ExtendsExpression := by
    rintro t ⟨⟩
    simp [Token.ExtendsExpression, Token.form]
  have hone : ∀ t, [n].head? = some t → ¬ t.ExtendsExpression := by
    rintro t ⟨⟩
    simp [Token.ExtendsExpression, Token.form, n]
  exact ⟨hts, hus, hn, hf, (parse_append hts hf).2.1 _ hus, hone, (parse_append hts hone).2.2 _ hn⟩

/-! ## Cuts -/

/-- The chunks make up the token list, and each one parses to a single statement. -/
structure IsCut (ts : List Token) (chunks : List (List Token)) : Prop where
  flatten : chunks.flatten = ts
  nonempty : ∀ chunk ∈ chunks, chunk ≠ []
  single : ∀ chunk ∈ chunks, ∃ tree, parse chunk = .ok ⟨[tree]⟩

/-- The chunks parse to the statements, one to one. -/
def ParseTo (chunks : List (List Token)) (trees : List Node) : Prop :=
  List.Forall₂ (fun chunk tree => parse chunk = .ok ⟨[tree]⟩) chunks trees

variable {chunks others : List (List Token)} {trees' : List Node}

theorem ParseTo.spelled_flatten (h : ParseTo chunks trees) :
    (Clause.statements trees).Spelled chunks.flatten := by
  induction h with
  | nil => exact .noStatements
  | cons hf _ ih => exact .statements (parse_eq_single_iff.mp hf) ih

theorem exists_parseTo (h : (Clause.statements trees).Spelled ts) :
    ∃ chunks, chunks.flatten = ts ∧ ParseTo chunks trees := by
  induction trees generalizing ts with
  | nil =>
    cases h
    exact ⟨[], rfl, .nil⟩
  | cons first trees ih =>
    cases h with
    | statements hf ho =>
      obtain ⟨chunks, rfl, hchunks⟩ := ih ho
      exact ⟨_ :: chunks, rfl, .cons (parse_eq_single_iff.mpr hf) hchunks⟩

theorem ParseTo.exists_of_mem {chunk : List Token} (h : ParseTo chunks trees)
    (hmem : chunk ∈ chunks) : ∃ tree, parse chunk = .ok ⟨[tree]⟩ := by
  induction h with
  | nil => cases hmem
  | cons hf _ ih =>
    rcases List.mem_cons.mp hmem with rfl | hmem
    · exact ⟨_, hf⟩
    · exact ih hmem

theorem ParseTo.isCut (h : ParseTo chunks trees) : IsCut chunks.flatten chunks := by
  refine ⟨rfl, fun chunk hmem => ?_, fun chunk hmem => h.exists_of_mem hmem⟩
  obtain ⟨tree, htree⟩ := h.exists_of_mem hmem
  obtain ⟨t, us, rfl, -⟩ := (parse_eq_single_iff.mp htree).starts
  exact List.cons_ne_nil t us

theorem IsCut.exists_parseTo (h : IsCut ts chunks) : ∃ trees, ParseTo chunks trees := by
  have hsingle := h.single
  clear h
  induction chunks with
  | nil => exact ⟨[], .nil⟩
  | cons chunk chunks ih =>
    obtain ⟨hf, ho⟩ := List.forall_mem_cons.mp hsingle
    obtain ⟨tree, htree⟩ := hf
    obtain ⟨trees, htrees⟩ := ih ho
    exact ⟨tree :: trees, .cons htree htrees⟩

/-- Of a list of statements the first one ends at one place only. -/
theorem Grammar.Clause.Spelled.append_inj {tree' : Node} {us' vs' : List Token}
    (hf : (Clause.statement tree).Spelled us) (ho : (Clause.statements trees).Spelled vs)
    (hf' : (Clause.statement tree').Spelled us') (ho' : (Clause.statements trees').Spelled vs')
    (h : us ++ vs = us' ++ vs') : us = us' ∧ vs = vs' := by
  have ends {ws : List Token} {trees : List Node} (h : (Clause.statements trees).Spelled ws) :
      Ends (Tier.sum.operators ++ Tier.sum.inner) (next ws) := by
    simpa using h.ends_statements ends_nil
  have hread := hf.read vs (ends ho)
  rw [h, hf'.read vs' (ends ho')] at hread
  obtain ⟨-, rfl⟩ := EStateM.Result.ok.inj hread
  exact ⟨List.append_cancel_right h, rfl⟩

theorem ParseTo.unique (h : ParseTo chunks trees) (h' : ParseTo others trees')
    (heq : chunks.flatten = others.flatten) : chunks = others := by
  induction h generalizing others trees' with
  | nil =>
    cases h' with
    | nil => rfl
    | cons hf' _ =>
      obtain ⟨t, us, rfl, -⟩ := (parse_eq_single_iff.mp hf').starts
      cases heq
  | cons hf ho ih =>
    cases h' with
    | nil =>
      obtain ⟨t, us, rfl, -⟩ := (parse_eq_single_iff.mp hf).starts
      cases heq
    | cons hf' ho' =>
      rw [List.flatten_cons, List.flatten_cons] at heq
      obtain ⟨rfl, hrest⟩ := (parse_eq_single_iff.mp hf).append_inj (ParseTo.spelled_flatten ho)
        (parse_eq_single_iff.mp hf') (ParseTo.spelled_flatten ho') heq
      rw [ih ho' hrest]

/-- **A program has one cut into statements.** Its chunks parse to the statements of the program,
one to one. -/
theorem exists_cut_unique (h : parse ts = .ok p) :
    ∃ chunks, IsCut ts chunks ∧ chunks.length = p.statements.length ∧ ParseTo chunks p.statements ∧
      ∀ others, IsCut ts others → others = chunks := by
  obtain ⟨chunks, rfl, hchunks⟩ := exists_parseTo (derives_of_parse h)
  refine ⟨chunks, hchunks.isCut, hchunks.length_eq, hchunks, fun others hothers => ?_⟩
  obtain ⟨trees, htrees⟩ := hothers.exists_parseTo
  exact htrees.unique hchunks hothers.flatten

/-- `x = y f(1)` is cut after `y`, and nowhere else. -/
theorem cut_of_assignment_and_call :
    let y : List Token := [⟨.identifier, "x", 1⟩, ⟨.operator, "=", 3⟩, ⟨.identifier, "y", 5⟩]
    let f : List Token := [⟨.identifier, "f", 7⟩, ⟨.paren, "(", 8⟩, ⟨.literal, "1", 9⟩,
      ⟨.paren, ")", 10⟩]
    let trees : List Node := [.assignment "x" (.identifier "y"), .functionCall "f" [.number "1"]]
    parse (y ++ f) = .ok ⟨trees⟩ ∧ IsCut (y ++ f) [y, f] ∧ ParseTo [y, f] trees ∧
      ∀ others, IsCut (y ++ f) others → others = [y, f] := by
  intro y f trees
  have h : parse (y ++ f) = .ok ⟨trees⟩ := by cbv
  have hy : parse y = .ok ⟨[.assignment "x" (.identifier "y")]⟩ := by cbv
  have hf : parse f = .ok ⟨[.functionCall "f" [.number "1"]]⟩ := by cbv
  have hparse : ParseTo [y, f] trees := .cons hy (.cons hf .nil)
  have hcut : IsCut (y ++ f) [y, f] := by simpa using hparse.isCut
  obtain ⟨chunks, -, -, -, hunique⟩ := exists_cut_unique h
  refine ⟨h, hcut, hparse, fun others hothers => ?_⟩
  rw [hunique others hothers, hunique _ hcut]

end Pocl
