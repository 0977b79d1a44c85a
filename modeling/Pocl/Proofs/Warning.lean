import Mathlib.Algebra.GroupWithZero.Nat
import Mathlib.Data.List.Forall2
import Pocl.Proofs.Command
import Pocl.Proofs.Grammar.Alphabet
import Pocl.Proofs.Grammar.Words

/-!
# Warnings about accepted sources

No production takes a full stop by itself or an unrecognized character, with one exception: scanning
has no class for separators, so that a comma comes as an unrecognized character, and the lists of
the grammar take it by its text. A source that is accepted is therefore warned about once for each
of its separators, and for nothing else.

A list of `n` arguments or parameters is written with `n - 1` separators, and nothing else in a
program is. So the separators of an accepted source can be counted in its tree: there are as many as
the calls and the declarations in it need, at every depth. These are the tokens that scanning
doubts, and the warnings about the source are as many.

## Main definitions

* `Node.nodes`, `Program.nodes`: all nodes of a tree, of a program
* `Node.argumentSeparators`, `Node.parameterSeparators`: the separators in the lists of one node
* `doubts ts`: how many tokens of the list scanning doubts

## Main results

* `isDoubtful_iff_comma`: over the alphabet of the grammar, the doubtful tokens are the commas
* `accepted_warned_of_commas`: an accepted source is warned about for its separators alone
* `Phrase.Spelled.doubts_eq`, `Clause.Spelled.doubts_eq`: the doubtful tokens are the separators
* `accepted_warned_per_separator`: warnings about accepted sources, counted in the tree
-/

namespace Pocl

open Grammar Rule

variable {source w : String} {ws names : List String} {t : Token} {ts : List Token} {p : Program}

/-! ## Doubtful tokens of the grammar -/

theorem kind_of_mem_terminals : ∀ form ∈ terminals, form.1 ≠ .unknown ∧ form.1 ≠ .error := by
  decide

/-- Of the tokens that the grammar takes, scanning doubts the commas. -/
theorem isDoubtful_iff_comma (h : InAlphabet t.form) (hcomma : t.lexeme = "," → t.kind = .unknown) :
    t.isDoubtful = true ↔ t.lexeme = "," := by
  have hdoubt : t.isDoubtful = true ↔ t.kind = .unknown ∨ t.kind = .error := by
    simp [Token.isDoubtful]
  rw [hdoubt]
  refine ⟨fun hk => ?_, fun hl => .inl (hcomma hl)⟩
  rcases h with h | h | h | h
  · rcases hk with hk | hk <;> cases hk.symm.trans h
  · rcases hk with hk | hk <;> cases hk.symm.trans h
  · exact h
  · obtain ⟨hunknown, herror⟩ := kind_of_mem_terminals t.form h
    exact (hk.elim hunknown herror).elim

/-- Of the tokens of an accepted source, scanning doubts the commas. -/
theorem isDoubtful_iff_of_parseSource (h : parseSource source = .ok p) (ht : t ∈ scan source) :
    t.isDoubtful = true ↔ t.lexeme = "," :=
  isDoubtful_iff_comma (Clause.Spelled.overAlphabet (derives_of_parse h) t ht)
    (commasUnknown_scan source t ht)

/-! ## Reports -/

/-- **An accepted source is warned about for its separators alone.** There is one warning for each
comma of the source, in order, and each gives a place at which the comma stands. So there is none
exactly where no list of the source has a separator. Checking the source counts its statements and
writes these warnings. -/
theorem accepted_warned_of_commas (path source : String) (p : Program)
    (h : parseSource source = .ok p) :
    ∃ ws, warnings? source (scan source) = some ws ∧
      List.Forall₂ (WarnsOf source) ws ((scan source).filter (·.lexeme = ",")) ∧
      (ws = [] ↔ ∀ t ∈ scan source, t.lexeme ≠ ",") ∧
      checkReport? path source = some ⟨"ok: " ++ toString p.statements.length ++ " statement(s)\n",
        warningLines path ws, .ok (some p.statements.length)⟩ := by
  obtain ⟨ws, hws, hwarns⟩ := exists_warnings_scan source
  have hfilter : (scan source).filter Token.isDoubtful = (scan source).filter (·.lexeme = ",") := by
    refine List.filter_congr fun t ht => ?_
    rw [Bool.eq_iff_iff, isDoubtful_iff_of_parseSource h ht, decide_eq_true_iff]
  rw [hfilter] at hwarns
  refine ⟨ws, hws, hwarns, ?_, checkReport?_of_program path h hws⟩
  rw [← List.length_eq_zero_iff, hwarns.length_eq, List.length_eq_zero_iff, List.filter_eq_nil_iff]
  simp

/-- A call with two arguments is accepted, and checking it warns of the separator between them. -/
theorem accepted_with_warning :
    let source := "f(a, b)"
    let w := "warning at line 1, col 4: unrecognized character ','"
    parseSource source = .ok ⟨[.functionCall "f" [.identifier "a", .identifier "b"]]⟩ ∧
      warnings? source (scan source) = some [w] ∧
      checkReport? "f.pocl" source =
        some ⟨"ok: 1 statement(s)\n", "f.pocl: " ++ w ++ "\n", .ok (some 1)⟩ ∧
      ¬ ∀ s p, parseSource s = .ok p → warnings? s (scan s) = some [] := by
  intro source w
  have hscan : scan source = [⟨.identifier, "f", 1⟩, ⟨.paren, "(", 2⟩, ⟨.identifier, "a", 3⟩,
      ⟨.unknown, ",", 4⟩, ⟨.identifier, "b", 6⟩, ⟨.paren, ")", 7⟩] := by decide +kernel
  have h : parseSource source = .ok ⟨[.functionCall "f" [.identifier "a", .identifier "b"]]⟩ := by
    rw [parseSource, hscan]
    cbv
  have hws : warnings? source (scan source) = some [w] := by decide +kernel
  refine ⟨h, hws, checkReport?_of_program "f.pocl" h hws, fun hnone => ?_⟩
  rw [hnone source _ h] at hws
  cases hws

/-- A declaration with two parameters is warned about once, and one with a single parameter is not
warned about. -/
theorem accepted_declarations_warned :
    let source := "fn f(a, b) \x7b\x7d"
    let source' := "fn f(a) \x7b\x7d"
    (∃ w, warnings? source (scan source) = some [w] ∧ WarnsOf source w ⟨.unknown, ",", 7⟩) ∧
      warnings? source' (scan source') = some [] := by
  intro source source'
  have hscan : scan source = [⟨.keyword, "fn", 2⟩, ⟨.identifier, "f", 4⟩, ⟨.paren, "(", 5⟩,
      ⟨.identifier, "a", 6⟩, ⟨.unknown, ",", 7⟩, ⟨.identifier, "b", 9⟩, ⟨.paren, ")", 10⟩,
      ⟨.brace, "\x7b", 12⟩, ⟨.brace, "\x7d", 13⟩] := by decide +kernel
  have hscan' : scan source' = [⟨.keyword, "fn", 2⟩, ⟨.identifier, "f", 4⟩, ⟨.paren, "(", 5⟩,
      ⟨.identifier, "a", 6⟩, ⟨.paren, ")", 7⟩, ⟨.brace, "\x7b", 9⟩, ⟨.brace, "\x7d", 10⟩] := by
    decide +kernel
  have h : parseSource source = .ok ⟨[.functionDecl "f" ["a", "b"] []]⟩ := by
    rw [parseSource, hscan]
    cbv
  have h' : parseSource source' = .ok ⟨[.functionDecl "f" ["a"] []]⟩ := by
    rw [parseSource, hscan']
    cbv
  constructor
  · obtain ⟨ws, hws, hwarns, -⟩ := accepted_warned_of_commas "f.pocl" source _ h
    rw [hscan] at hwarns
    obtain ⟨w, ws, hw, hrest, rfl⟩ := List.forall₂_cons_right_iff.mp hwarns
    obtain rfl := List.forall₂_nil_right_iff.mp hrest
    exact ⟨w, hws, hw⟩
  · obtain ⟨ws, hws, -, hnil, -⟩ := accepted_warned_of_commas "f.pocl" source' _ h'
    rw [hws, hnil.mpr (by rw [hscan']; decide)]

/-! ## Separators in a tree -/

mutual

/-- All nodes of a tree, each before those below it. -/
@[simp] def Node.nodes : Node → List Node
  | .binaryOp left operator right => .binaryOp left operator right :: (left.nodes ++ right.nodes)
  | .unaryOp operator operand => .unaryOp operator operand :: operand.nodes
  | .number value => [.number value]
  | .identifier name => [.identifier name]
  | .assignment target value => .assignment target value :: value.nodes
  | .compoundAssignment target operator value =>
    .compoundAssignment target operator value :: value.nodes
  | .functionCall callee arguments => .functionCall callee arguments :: nodesOfAll arguments
  | .functionDecl name parameters body => .functionDecl name parameters body :: nodesOfAll body
  | .ifStatement condition body =>
    .ifStatement condition body :: (condition.nodes ++ nodesOfAll body)

/-- All nodes of several trees, in order. -/
@[simp] def nodesOfAll : List Node → List Node
  | [] => []
  | node :: nodes => node.nodes ++ nodesOfAll nodes

end

/-- All nodes of a program, statement by statement. -/
def Program.nodes (p : Program) : List Node :=
  nodesOfAll p.statements

/-- The separators in the argument list of a call, and none in other nodes. -/
@[simp] def Node.argumentSeparators : Node → Nat
  | .functionCall _ arguments => max arguments.length 1 - 1
  | _ => 0

/-- The separators in the parameter list of a declaration, and none in other nodes. -/
@[simp] def Node.parameterSeparators : Node → Nat
  | .functionDecl _ parameters _ => max parameters.length 1 - 1
  | _ => 0

/-- The separators in the lists of the nodes. -/
def separators (nodes : List Node) : Nat :=
  (nodes.map Node.argumentSeparators).sum + (nodes.map Node.parameterSeparators).sum

@[simp] theorem separators_nil : separators [] = 0 := rfl

@[simp] theorem separators_cons (node : Node) (nodes : List Node) : separators (node :: nodes) =
    node.argumentSeparators + node.parameterSeparators + separators nodes := by
  simp only [separators, List.map_cons, List.sum_cons]
  omega

@[simp] theorem separators_append (nodes nodes' : List Node) :
    separators (nodes ++ nodes') = separators nodes + separators nodes' := by
  simp only [separators, List.map_append, List.sum_append]
  omega

/-! ## Doubtful tokens of a list -/

/-- How many tokens of the list scanning doubts. -/
def doubts (ts : List Token) : Nat :=
  ts.countP Token.isDoubtful

@[simp] theorem doubts_nil : doubts [] = 0 := rfl

@[simp] theorem doubts_append (ts us : List Token) : doubts (ts ++ us) = doubts ts + doubts us :=
  List.countP_append

/-- Only an unknown token and a malformed one are doubted. -/
theorem doubts_cons_kind {kind : TokenKind} (h : t.kind = kind)
    (hk : kind ≠ .unknown ∧ kind ≠ .error) : doubts (t :: ts) = doubts ts := by
  refine List.countP_cons_of_neg ?_
  simp [Token.isDoubtful, h, hk]

theorem doubts_cons_form {kind : TokenKind} {lexeme : String} (h : t.form = (kind, lexeme))
    (hk : kind ≠ .unknown ∧ kind ≠ .error) : doubts (t :: ts) = doubts ts :=
  doubts_cons_kind (kind_of_form h) hk

theorem doubts_cons_comma (h : t.kind = .unknown) : doubts (t :: ts) = doubts ts + 1 :=
  List.countP_cons_of_pos (by simp [Token.isDoubtful, h])

/-- Brackets around tokens are not doubted. -/
theorem doubts_bracket {l r : Token} {kind : TokenKind} {lexeme lexeme' : String}
    (hl : l.form = (kind, lexeme)) (hr : r.form = (kind, lexeme'))
    (hk : kind ≠ .unknown ∧ kind ≠ .error) : doubts (l :: (ts ++ [r])) = doubts ts := by
  rw [doubts_cons_form hl hk, doubts_append, doubts_cons_form hr hk, doubts_nil, Nat.add_zero]

namespace Grammar

/-! ## Expressions -/

/-- The separators of what a part of an expression stands for. A comma precedes each further
argument, and so each argument but the first one. -/
@[simp] def Phrase.separators : Phrase → Nat
  | primary tree | operand _ tree | chain _ tree => Pocl.separators tree.nodes
  | links _ pairs => Pocl.separators (nodesOfAll (pairs.map Prod.snd))
  | arguments args => (max args.length 1 - 1) + Pocl.separators (nodesOfAll args)
  | moreArguments args => args.length + Pocl.separators (nodesOfAll args)

theorem separators_foldLinks (tier : Tier) (first : Node) (pairs : List (String × Node)) :
    Pocl.separators (foldLinks first pairs).nodes =
      Pocl.separators first.nodes + (Phrase.links tier pairs).separators := by
  induction pairs generalizing first with
  | nil => rfl
  | cons pair pairs ih =>
    calc Pocl.separators (foldLinks (.binaryOp first pair.1 pair.2) pairs).nodes
        = Pocl.separators first.nodes + Pocl.separators pair.2.nodes +
            (Phrase.links tier pairs).separators := by
          rw [ih]
          simp
      _ = Pocl.separators first.nodes + (Phrase.links tier (pair :: pairs)).separators := by
          simp [Nat.add_assoc]

theorem Phrase.Spelled.doubts_eq {phrase : Phrase} (h : phrase.Spelled ts)
    (hts : CommasUnknown ts) : doubts ts = phrase.separators := by
  induction h with
  | number ht => exact doubts_cons_kind ht (by simp)
  | name ht => exact doubts_cons_kind ht (by simp)
  | call hf hl _ hr ih =>
    simp only [commasUnknown_cons, commasUnknown_append] at hts
    rw [doubts_cons_kind hf (by simp), doubts_bracket hl hr (by simp), ih hts.2.2.1]
    simp
  | group hl _ hr ih =>
    simp only [commasUnknown_cons, commasUnknown_append] at hts
    rw [doubts_bracket hl hr (by simp)]
    exact ih hts.2.1
  | term _ ih => exact ih hts
  | factor _ ih => exact ih hts
  | noLinks => rfl
  | link ho _ _ _ ihr ihl =>
    simp only [commasUnknown_cons, commasUnknown_append] at hts
    rw [doubts_cons_kind ho (by simp), doubts_append, ihr hts.2.1, ihl hts.2.2]
    simp
  | chain _ _ ihf ihl =>
    obtain ⟨hus, hvs⟩ := commasUnknown_append.mp hts
    rw [doubts_append, ihf hus, ihl hvs]
    exact (separators_foldLinks _ _ _).symm
  | noArguments => rfl
  | someArguments _ _ ihf iho =>
    obtain ⟨hus, hvs⟩ := commasUnknown_append.mp hts
    rw [doubts_append, ihf hus, iho hvs]
    simp only [Phrase.separators, nodesOfAll, separators_append, List.length_cons]
    omega
  | noMoreArguments => rfl
  | moreArguments hs _ _ ihn iho =>
    simp only [commasUnknown_cons, commasUnknown_append] at hts
    rw [doubts_cons_comma (hts.1 hs), doubts_append, ihn hts.2.1, iho hts.2.2]
    simp only [Phrase.separators, nodesOfAll, separators_append, List.length_cons]
    omega

/-! ## Statements -/

/-- The separators of what a part of a program stands for. -/
@[simp] def Clause.separators : Clause → Nat
  | statement tree => Pocl.separators tree.nodes
  | statements trees | block trees => Pocl.separators (nodesOfAll trees)

/-- A comma precedes each further parameter. -/
theorem MoreParametersSpelled.doubts_eq (h : MoreParametersSpelled names ts)
    (hts : CommasUnknown ts) : doubts ts = names.length := by
  induction h with
  | nil => rfl
  | cons hs hn _ ih =>
    simp only [commasUnknown_cons] at hts
    rw [doubts_cons_comma (hts.1 hs), doubts_cons_kind hn (by simp), ih hts.2.2, List.length_cons]

theorem ParametersSpelled.doubts_eq (h : ParametersSpelled names ts) (hts : CommasUnknown ts) :
    doubts ts = max names.length 1 - 1 := by
  cases h with
  | nil => rfl
  | cons hn hmore =>
    rw [doubts_cons_kind hn (by simp), hmore.doubts_eq (commasUnknown_cons.mp hts).2,
      List.length_cons]
    omega

theorem Clause.Spelled.doubts_eq {clause : Clause} (h : clause.Spelled ts)
    (hts : CommasUnknown ts) : doubts ts = clause.separators := by
  induction h with
  | functionDecl hk hn hl hp hr _ ih =>
    simp only [commasUnknown_cons, commasUnknown_append] at hts
    obtain ⟨-, -, -, hus, -, hvs⟩ := hts
    rw [doubts_cons_form hk (by simp), doubts_cons_kind hn (by simp), doubts_cons_form hl (by simp),
      doubts_append, hp.doubts_eq hus, doubts_cons_form hr (by simp), ih hvs]
    simp
  | ifStatement hk hc _ ih =>
    simp only [commasUnknown_cons, commasUnknown_append] at hts
    rw [doubts_cons_form hk (by simp), doubts_append, hc.doubts_eq hts.2.1, ih hts.2.2]
    simp
  | print hk hl ha hr =>
    simp only [commasUnknown_cons, commasUnknown_append] at hts
    rw [doubts_cons_form hk (by simp), doubts_bracket hl hr (by simp), ha.doubts_eq hts.2.2.1]
    simp
  | call hf hl ha hr =>
    simp only [commasUnknown_cons, commasUnknown_append] at hts
    rw [doubts_cons_kind hf (by simp), doubts_bracket hl hr (by simp), ha.doubts_eq hts.2.2.1]
    simp
  | compoundAssignment hx ho hv =>
    simp only [commasUnknown_cons] at hts
    rw [doubts_cons_kind hx (by simp), doubts_cons_form ho (by simp), hv.doubts_eq hts.2.2]
    simp
  | assignment hx ho hv =>
    simp only [commasUnknown_cons] at hts
    rw [doubts_cons_kind hx (by simp), doubts_cons_form ho (by simp), hv.doubts_eq hts.2.2]
    simp
  | noStatements => rfl
  | statements _ _ ihf iho =>
    obtain ⟨hus, hvs⟩ := commasUnknown_append.mp hts
    rw [doubts_append, ihf hus, iho hvs]
    simp
  | block ho _ hc ih =>
    simp only [commasUnknown_cons, commasUnknown_append] at hts
    rw [doubts_bracket ho hc (by simp)]
    exact ih hts.2.1

end Grammar

/-! ## Source texts -/

/-- The text of a warning about a comma. -/
theorem WarnsOf.comma (h : WarnsOf source w t) (hl : t.lexeme = ",") (hk : t.kind = .unknown) :
    ∃ place : Location, place.PointsAt source "," ∧
      w = "warning at line " ++ toString place.line ++ ", col " ++ toString place.column ++
        ": unrecognized character ','" := by
  obtain ⟨place, points, complaint, hcomplaint, rfl⟩ := h
  obtain rfl : complaint = "unrecognized character" := by simpa [hk] using hcomplaint
  rw [hl] at points
  refine ⟨place, points, ?_⟩
  rw [hl]
  simp only [String.append_assoc]
  rfl

/-- Every warning is about one of the tokens. -/
theorem exists_mem_of_mem_warnings (h : List.Forall₂ (WarnsOf source) ws ts) (hw : w ∈ ws) :
    ∃ t ∈ ts, WarnsOf source w t := by
  obtain ⟨i, hi, rfl⟩ := List.getElem_of_mem hw
  exact ⟨_, List.getElem_mem _, h.get hi (h.length_eq ▸ hi)⟩

/-- **An accepted source is warned about once for each separator in its tree.** Every warning is
about an unrecognized comma and gives a place at which a comma stands, and there are as many as the
arguments of all calls and the parameters of all declarations need, whatever depth they stand at. -/
theorem accepted_warned_per_separator (source : String) (p : Program)
    (h : parseSource source = .ok p) :
    ∃ ws, warnings? source (scan source) = some ws ∧
      (∀ w ∈ ws, ∃ place : Location, place.PointsAt source "," ∧
        w = "warning at line " ++ toString place.line ++ ", col " ++ toString place.column ++
          ": unrecognized character ','") ∧
      ws.length = (p.nodes.map Node.argumentSeparators).sum +
        (p.nodes.map Node.parameterSeparators).sum := by
  obtain ⟨ws, hws, hwarns⟩ := exists_warnings_scan source
  refine ⟨ws, hws, fun w hw => ?_, ?_⟩
  · obtain ⟨t, ht, hwarn⟩ := exists_mem_of_mem_warnings hwarns hw
    obtain ⟨hmem, hdoubtful⟩ := List.mem_filter.mp ht
    have hcomma := (isDoubtful_iff_of_parseSource h hmem).mp hdoubtful
    exact hwarn.comma hcomma (commasUnknown_scan source t hmem hcomma)
  · rw [hwarns.length_eq, ← List.countP_eq_length_filter]
    exact Clause.Spelled.doubts_eq (derives_of_parse h) (commasUnknown_scan source)

/-- Two parameters and three arguments, of which one is a call with two arguments, have four
separators. -/
theorem four_warnings_of_nested_lists :
    let source := "fn f(a, b) \x7b g(1, h(a, b), 2) \x7d"
    let call : Node := .functionCall "g"
      [.number "1", .functionCall "h" [.identifier "a", .identifier "b"], .number "2"]
    parseSource source = .ok ⟨[.functionDecl "f" ["a", "b"] [call]]⟩ ∧
      ∃ ws, warnings? source (scan source) = some ws ∧ ws.length = 4 ∧
        ∀ w ∈ ws, ∃ place : Location, place.PointsAt source "," ∧
          w = "warning at line " ++ toString place.line ++ ", col " ++ toString place.column ++
            ": unrecognized character ','" := by
  intro source call
  have hscan : scan source = [⟨.keyword, "fn", 2⟩, ⟨.identifier, "f", 4⟩, ⟨.paren, "(", 5⟩,
      ⟨.identifier, "a", 6⟩, ⟨.unknown, ",", 7⟩, ⟨.identifier, "b", 9⟩, ⟨.paren, ")", 10⟩,
      ⟨.brace, "\x7b", 12⟩, ⟨.identifier, "g", 14⟩, ⟨.paren, "(", 15⟩, ⟨.literal, "1", 16⟩,
      ⟨.unknown, ",", 17⟩, ⟨.identifier, "h", 19⟩, ⟨.paren, "(", 20⟩, ⟨.identifier, "a", 21⟩,
      ⟨.unknown, ",", 22⟩, ⟨.identifier, "b", 24⟩, ⟨.paren, ")", 25⟩, ⟨.unknown, ",", 26⟩,
      ⟨.literal, "2", 28⟩, ⟨.paren, ")", 29⟩, ⟨.brace, "\x7d", 31⟩] := by decide +kernel
  have h : parseSource source = .ok ⟨[.functionDecl "f" ["a", "b"] [call]]⟩ := by
    rw [parseSource, hscan]
    cbv
  obtain ⟨ws, hws, hcommas, hlength⟩ := accepted_warned_per_separator source _ h
  exact ⟨h, ws, hws, hlength, hcommas⟩

end Pocl
