import Pocl.Proofs.Grammar.Acceptance
import Pocl.Proofs.Token.Spelling

/-!
# The words of a tree

A tree keeps every number, name, operator and reserved word of its source, and it keeps them in
the order of the source. What it does not keep is punctuation: parentheses, braces and separators.
So the words of a tree, read off from left to right, are the lexemes of its source without the
punctuation, and parsing loses, doubles or moves none of them.

## Main definitions

* `Node.words`, `Program.words`: the words of a tree, from left to right
* `Token.isPunctuation`: the tokens that leave no trace in the tree
* `wordsOf ts`: the lexemes of a token list without the punctuation

## Main results

* `Phrase.Spelled.wordsOf`, `Clause.Spelled.wordsOf`: tokens spell a tree of the same words
* `wordsOf_scan_eq_words`: the words of a source text are those of its program
-/

namespace Pocl

open Grammar Rule

variable {t : Token} {ts us : List Token} {tree : Node} {trees : List Node} {names : List String}

/-! ## Trees -/

mutual

/-- The words of a tree, from left to right. -/
def Node.words : Node → List String
  | .binaryOp left operator right => left.words ++ operator :: right.words
  | .unaryOp operator operand => operator :: operand.words
  | .number value => [value]
  | .identifier name => [name]
  | .assignment target value => target :: "=" :: value.words
  | .compoundAssignment target operator value => target :: operator :: value.words
  | .functionCall callee arguments => callee :: wordsOfAll arguments
  | .functionDecl name parameters body => "fn" :: name :: (parameters ++ wordsOfAll body)
  | .ifStatement condition body => "if" :: (condition.words ++ wordsOfAll body)

/-- The words of several trees, in order. -/
def wordsOfAll : List Node → List String
  | [] => []
  | node :: nodes => node.words ++ wordsOfAll nodes

end

/-- The words of a program, statement by statement. -/
def Program.words (p : Program) : List String :=
  wordsOfAll p.statements

/-! ## Tokens -/

/-- A parenthesis, a brace or a separator as it is scanned. -/
def Token.isPunctuation (t : Token) : Bool :=
  t.kind = .paren || t.kind = .brace || t.is .unknown ","

/-- The lexemes of a token list without the punctuation. -/
def wordsOf (ts : List Token) : List String :=
  (ts.filter fun t => !t.isPunctuation).map Token.lexeme

theorem wordsOf_nil : wordsOf [] = [] := rfl

theorem wordsOf_append (ts us : List Token) : wordsOf (ts ++ us) = wordsOf ts ++ wordsOf us := by
  simp [wordsOf]

theorem wordsOf_cons (t : Token) (ts : List Token) :
    wordsOf (t :: ts) = if t.isPunctuation then wordsOf ts else t.lexeme :: wordsOf ts := by
  cases h : t.isPunctuation <;> simp [wordsOf, h]

/-- Punctuation adds no word. -/
theorem wordsOf_cons_pos (h : t.isPunctuation = true) : wordsOf (t :: ts) = wordsOf ts := by
  rw [wordsOf_cons, if_pos h]

/-- A token that is no punctuation is a word. -/
theorem wordsOf_cons_neg (h : t.isPunctuation = false) :
    wordsOf (t :: ts) = t.lexeme :: wordsOf ts := by
  rw [wordsOf_cons, h]
  rfl

theorem isPunctuation_of_kind (h : t.kind ∈ [.keyword, .literal, .identifier, .operator]) :
    t.isPunctuation = false := by
  simp only [List.mem_cons, List.not_mem_nil, or_false] at h
  rcases h with h | h | h | h
  all_goals simp [Token.isPunctuation, Token.is, h]

theorem isPunctuation_of_paren {lexeme : String} (h : t.form = (.paren, lexeme)) :
    t.isPunctuation = true := by
  simp [Token.isPunctuation, kind_of_form h]

theorem isPunctuation_of_brace {lexeme : String} (h : t.form = (.brace, lexeme)) :
    t.isPunctuation = true := by
  simp [Token.isPunctuation, kind_of_form h]

/-- A reserved word or an operator of a given form adds its lexeme. -/
theorem wordsOf_cons_form {kind : TokenKind} {lexeme : String} (h : t.form = (kind, lexeme))
    (hk : kind ∈ [.keyword, .literal, .identifier, .operator]) :
    wordsOf (t :: ts) = lexeme :: wordsOf ts := by
  obtain ⟨rfl, rfl⟩ := Prod.mk.inj h
  exact wordsOf_cons_neg (isPunctuation_of_kind hk)

theorem wordsOf_cons_kind {kind : TokenKind} (h : t.kind = kind)
    (hk : kind ∈ [.keyword, .literal, .identifier, .operator]) :
    wordsOf (t :: ts) = t.lexeme :: wordsOf ts :=
  wordsOf_cons_neg (isPunctuation_of_kind (h ▸ hk))

/-- Brackets around tokens add no word. -/
theorem wordsOf_bracket {l r : Token} (hl : l.isPunctuation = true) (hr : r.isPunctuation = true) :
    wordsOf (l :: (ts ++ [r])) = wordsOf ts := by
  rw [wordsOf_cons_pos hl, wordsOf_append, wordsOf_cons_pos hr, wordsOf_nil, List.append_nil]

/-! ## Separators -/

/-- Every comma has the class that scanning gives it. -/
def CommasUnknown (ts : List Token) : Prop :=
  ∀ t ∈ ts, t.lexeme = "," → t.kind = .unknown

theorem isPunctuation_of_comma (h : t.lexeme = ",") (hk : t.kind = .unknown) :
    t.isPunctuation = true := by
  simp [Token.isPunctuation, Token.is, h, hk]

/-- Scanning gives a comma no other class. -/
theorem Shaped.kind_of_comma (h : Shaped t.form) (hl : t.lexeme = ",") : t.kind = .unknown := by
  have hfits : Fits (Leads []) t.lexeme t.kind := h.fits (by simp)
  have hcut : cut ',' [] = ⟨t.kind, t.lexeme.toList, []⟩ :=
    cut_eq_of_fits h.1 hfits (by simp [hl])
  exact (congrArg Cut.kind hcut).symm

theorem commasUnknown_scan (source : String) : CommasUnknown (scan source) := fun _ ht =>
  (shaped_of_mem_scan ht).kind_of_comma

theorem commasUnknown_cons :
    CommasUnknown (t :: ts) ↔ (t.lexeme = "," → t.kind = .unknown) ∧ CommasUnknown ts :=
  List.forall_mem_cons

theorem commasUnknown_append : CommasUnknown (ts ++ us) ↔ CommasUnknown ts ∧ CommasUnknown us :=
  List.forall_mem_append

namespace Grammar

/-! ## Expressions -/

/-- The words of what a part of an expression stands for. -/
def Phrase.words : Phrase → List String
  | primary tree | operand _ tree | chain _ tree => tree.words
  | links _ pairs => pairs.flatMap fun pair => pair.1 :: pair.2.words
  | arguments args | moreArguments args => wordsOfAll args

theorem words_foldLinks (tier : Tier) (first : Node) (pairs : List (String × Node)) :
    (foldLinks first pairs).words = first.words ++ (Phrase.links tier pairs).words := by
  induction pairs generalizing first with
  | nil => exact (List.append_nil _).symm
  | cons pair pairs ih =>
    -- Folding one more operation onto the left adds its words on the right.
    calc (foldLinks (.binaryOp first pair.1 pair.2) pairs).words
        = (first.words ++ pair.1 :: pair.2.words) ++ (Phrase.links tier pairs).words := by
          rw [ih, Node.words]
      _ = first.words ++ (Phrase.links tier (pair :: pairs)).words := by
          simp [Phrase.words]

theorem Phrase.Spelled.wordsOf {phrase : Phrase} (h : phrase.Spelled ts)
    (hts : CommasUnknown ts) : Pocl.wordsOf ts = phrase.words := by
  induction h with
  | number ht => exact wordsOf_cons_kind ht (by simp)
  | name ht => exact wordsOf_cons_kind ht (by simp)
  | call hf hl _ hr ih =>
    simp only [commasUnknown_cons, commasUnknown_append] at hts
    rw [wordsOf_cons_kind hf (by simp),
      wordsOf_bracket (isPunctuation_of_paren hl) (isPunctuation_of_paren hr), ih hts.2.2.1]
    rfl
  | group hl _ hr ih =>
    simp only [commasUnknown_cons, commasUnknown_append] at hts
    rw [wordsOf_bracket (isPunctuation_of_paren hl) (isPunctuation_of_paren hr)]
    exact ih hts.2.1
  | term _ ih => exact ih hts
  | factor _ ih => exact ih hts
  | noLinks => rfl
  | link ho _ _ _ ihr ihl =>
    simp only [commasUnknown_cons, commasUnknown_append] at hts
    rw [wordsOf_cons_kind ho (by simp), wordsOf_append, ihr hts.2.1, ihl hts.2.2]
    rfl
  | chain _ _ ihf ihl =>
    obtain ⟨hus, hvs⟩ := commasUnknown_append.mp hts
    rw [wordsOf_append, ihf hus, ihl hvs]
    exact (words_foldLinks _ _ _).symm
  | noArguments => rfl
  | someArguments _ _ ihf iho =>
    obtain ⟨hus, hvs⟩ := commasUnknown_append.mp hts
    rw [wordsOf_append, ihf hus, iho hvs]
    rfl
  | noMoreArguments => rfl
  | moreArguments hs _ _ ihn iho =>
    simp only [commasUnknown_cons, commasUnknown_append] at hts
    rw [wordsOf_cons_pos (isPunctuation_of_comma hs (hts.1 hs)), wordsOf_append, ihn hts.2.1,
      iho hts.2.2]
    rfl

/-! ## Statements -/

/-- The words of what a part of a program stands for. -/
def Clause.words : Clause → List String
  | statement tree => tree.words
  | statements trees | block trees => wordsOfAll trees

theorem MoreParametersSpelled.wordsOf (h : MoreParametersSpelled names ts)
    (hts : CommasUnknown ts) : Pocl.wordsOf ts = names := by
  induction h with
  | nil => rfl
  | cons hs hn _ ih =>
    simp only [commasUnknown_cons] at hts
    rw [wordsOf_cons_pos (isPunctuation_of_comma hs (hts.1 hs)), wordsOf_cons_kind hn (by simp),
      ih hts.2.2]

theorem ParametersSpelled.wordsOf (h : ParametersSpelled names ts) (hts : CommasUnknown ts) :
    Pocl.wordsOf ts = names := by
  cases h with
  | nil => rfl
  | cons hn hmore =>
    rw [wordsOf_cons_kind hn (by simp), hmore.wordsOf (commasUnknown_cons.mp hts).2]

theorem Clause.Spelled.wordsOf {clause : Clause} (h : clause.Spelled ts)
    (hts : CommasUnknown ts) : Pocl.wordsOf ts = clause.words := by
  induction h with
  | functionDecl hk hn hl hp hr _ ih =>
    simp only [commasUnknown_cons, commasUnknown_append] at hts
    obtain ⟨-, -, -, hus, -, hvs⟩ := hts
    rw [wordsOf_cons_form hk (by simp), wordsOf_cons_kind hn (by simp),
      wordsOf_cons_pos (isPunctuation_of_paren hl), wordsOf_append, hp.wordsOf hus,
      wordsOf_cons_pos (isPunctuation_of_paren hr), ih hvs]
    rfl
  | ifStatement hk hc _ ih =>
    simp only [commasUnknown_cons, commasUnknown_append] at hts
    rw [wordsOf_cons_form hk (by simp), wordsOf_append, hc.wordsOf hts.2.1, ih hts.2.2]
    rfl
  | print hk hl ha hr =>
    simp only [commasUnknown_cons, commasUnknown_append] at hts
    rw [wordsOf_cons_form hk (by simp),
      wordsOf_bracket (isPunctuation_of_paren hl) (isPunctuation_of_paren hr),
      ha.wordsOf hts.2.2.1]
    simp [Clause.words, Phrase.words, Node.words, wordsOfAll]
  | call hf hl ha hr =>
    simp only [commasUnknown_cons, commasUnknown_append] at hts
    rw [wordsOf_cons_kind hf (by simp),
      wordsOf_bracket (isPunctuation_of_paren hl) (isPunctuation_of_paren hr),
      ha.wordsOf hts.2.2.1]
    rfl
  | compoundAssignment hx ho hv =>
    simp only [commasUnknown_cons] at hts
    rw [wordsOf_cons_kind hx (by simp), wordsOf_cons_form ho (by simp), hv.wordsOf hts.2.2]
    rfl
  | assignment hx ho hv =>
    simp only [commasUnknown_cons] at hts
    rw [wordsOf_cons_kind hx (by simp), wordsOf_cons_form ho (by simp), hv.wordsOf hts.2.2]
    rfl
  | noStatements => rfl
  | statements _ _ ihf iho =>
    obtain ⟨hus, hvs⟩ := commasUnknown_append.mp hts
    rw [wordsOf_append, ihf hus, iho hvs]
    rfl
  | block ho _ hc ih =>
    simp only [commasUnknown_cons, commasUnknown_append] at hts
    rw [wordsOf_bracket (isPunctuation_of_brace ho) (isPunctuation_of_brace hc)]
    exact ih hts.2.1

end Grammar

/-! ## Source texts -/

/-- **Parsing keeps every word in its place**: the lexemes of a source text without the punctuation
are the words of its program, in the same order. -/
theorem wordsOf_scan_eq_words (source : String) (p : Program) (h : parseSource source = .ok p) :
    wordsOf (scan source) = p.words :=
  Clause.Spelled.wordsOf (derives_of_parse h) (commasUnknown_scan source)

/-- The words of a condition that calls a function, and of the assignment that depends on it. -/
theorem wordsOf_scan_condition :
    let source := "if f(a, b) \x7b x = 1 \x7d"
    let p : Program := ⟨[.ifStatement (.functionCall "f" [.identifier "a", .identifier "b"])
      [.assignment "x" (.number "1")]]⟩
    parseSource source = .ok p ∧ wordsOf (scan source) = p.words ∧
      p.words = ["if", "f", "a", "b", "x", "=", "1"] := by
  intro source p
  have hscan : scan source =
      [⟨.keyword, "if", 2⟩, ⟨.identifier, "f", 4⟩, ⟨.paren, "(", 5⟩, ⟨.identifier, "a", 6⟩,
        ⟨.unknown, ",", 7⟩, ⟨.identifier, "b", 9⟩, ⟨.paren, ")", 10⟩, ⟨.brace, "\x7b", 12⟩,
        ⟨.identifier, "x", 14⟩, ⟨.operator, "=", 16⟩, ⟨.literal, "1", 18⟩,
        ⟨.brace, "\x7d", 20⟩] := by decide +kernel
  have h : parseSource source = .ok p := by
    rw [parseSource, hscan]
    cbv
  exact ⟨h, wordsOf_scan_eq_words source p h, rfl⟩

end Pocl
