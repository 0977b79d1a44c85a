import Pocl.Command
import Pocl.Proofs.Diagnostic
import Pocl.Proofs.Json.Decoding
import Pocl.Proofs.Token.Cursor
import Pocl.Proofs.Tree.Outline

/-!
# Reports of commands

Each command reads the file, warns, parses and prints by itself. They still tell the same story: the
two that parse accept the same files and fail for the same reason, the two that warn write the same
warnings, and the statements that one counts are those of the tree that another prints. A command
that fails has written nothing to the standard output, and the exit code of the program tells
whether its command succeeded.

Scanning takes only slices that exist. A scanned token begins between two characters of its source,
and warnings and diagnostics look up no other offsets. So no command is left without a report,
whatever the text of its file is.

## Main definitions

* `Report.Succeeds`: the command has a result
* `HoldsProgram read path p`: the file at the path is read and spells the program `p`
* `ListsTokens ts stdout format`, `ShowsTree p stdout format`: what a successful command prints
* `statementsShown? stdout format`: the number of statements that a printed tree shows
* `Concord read path format format' tokens tree check`: the reports of the three commands on a file
  agree

## Main results

* `statementsShown?_tree`: the statements of a program are counted in its printed tree
* `exists_concord`: the commands on a file have reports, which agree
* `exists_run`: every command has a report, and prints nothing unless it succeeds
* `commands_agree`: both, and the exit code of the program is that of its command
* `no_slice_fails`: no slice that scanning or locating takes of a source fails
-/

namespace Pocl

variable {read : String → Except ReadError String} {path source : String} {cause : ReadError}
  {format format' : Format} {command : Command} {p : Program} {ws : List String}
  {e : CommandError} {err : ParseError}

/-! ## Success and failure -/

/-- The command has a result. -/
def Report.Succeeds (report : Report) : Prop :=
  ∃ count, report.result = .ok count

@[simp] theorem succeeds_ok {stdout stderr : String} {count : Option Nat} :
    (Report.mk stdout stderr (.ok count)).Succeeds :=
  ⟨count, rfl⟩

@[simp] theorem not_succeeds_error {stdout stderr : String} {e : CommandError} :
    ¬ (Report.mk stdout stderr (.error e)).Succeeds := by
  rintro ⟨count, h⟩
  cases h

/-! ## Reports -/

theorem exists_diagnostic (h : parseSource source = .error err) :
    ∃ diagnostic, err.diagnostic? source = some diagnostic := by
  cases ht : err.found with
  | none => exact ⟨_, by rw [ParseError.diagnostic?, ht]⟩
  | some t =>
    obtain ⟨place, hplace, -⟩ := exists_pointsAt_of_mem_scan (found_mem_of_parse_error h ht)
    exact ⟨_, diagnostic?_of_found ht hplace⟩

theorem readProgram?_of_program (path : String) (hp : parseSource source = .ok p) :
    readProgram? path source = some (.ok p) := by
  rw [readProgram?, hp]

theorem readProgram?_of_error {d : String} (path : String) (he : parseSource source = .error err)
    (hd : err.diagnostic? source = some d) :
    readProgram? path source = some (.error (.malformed path d)) := by
  rw [readProgram?, he]
  exact Option.map_eq_some_iff.mpr ⟨d, hd, rfl⟩

theorem tokensReport?_of_warnings (hws : warnings? source (scan source) = some ws) :
    tokensReport? path format source =
      some ⟨format.tokens (scan source), warningLines path ws, .ok none⟩ := by
  rw [tokensReport?, hws]
  rfl

theorem treeReport?_of_program (hp : parseSource source = .ok p) :
    treeReport? path format source = some ⟨format.tree p, "", .ok none⟩ := by
  rw [treeReport?, readProgram?_of_program path hp]
  rfl

theorem treeReport?_of_error (h : readProgram? path source = some (.error e)) :
    treeReport? path format source = some (.failed e) := by
  rw [treeReport?, h]
  rfl

theorem checkReport?_of_program (path : String) (hp : parseSource source = .ok p)
    (hws : warnings? source (scan source) = some ws) :
    checkReport? path source = some ⟨"ok: " ++ toString p.statements.length ++ " statement(s)\n",
      warningLines path ws, .ok (some p.statements.length)⟩ := by
  rw [checkReport?, hws, readProgram?_of_program path hp]
  rfl

theorem checkReport?_of_error (h : readProgram? path source = some (.error e))
    (hws : warnings? source (scan source) = some ws) :
    checkReport? path source = some ⟨"", warningLines path ws, .error e⟩ := by
  rw [checkReport?, hws, h]
  rfl

/-! ## Files and exits -/

/-- The file at the path is read and spells the program `p`. -/
def HoldsProgram (read : String → Except ReadError String) (path : String) (p : Program) : Prop :=
  ∃ source, read path = .ok source ∧ parseSource source = .ok p

theorem HoldsProgram.eq {q : Program} (hp : HoldsProgram read path p)
    (hq : HoldsProgram read path q) : p = q := by
  obtain ⟨source, hread, hp⟩ := hp
  obtain ⟨source', hread', hq⟩ := hq
  obtain rfl := Except.ok.inj (hread.symm.trans hread')
  exact Except.ok.inj (hp.symm.trans hq)

/-- The exit of the program tells whether its command succeeded, and it prints what that printed. -/
theorem exit_spec (report : Report) : report.exit.stdout = report.stdout ∧
    (report.exit.code = 0 ↔ report.Succeeds) ∧ (report.exit.code = 1 ↔ ¬ report.Succeeds) := by
  obtain ⟨stdout, stderr, result⟩ := report
  cases result <;> simp [Report.exit]

theorem run?_of_read (h : read command.path = .ok source) :
    command.run? read = command.report? source := by
  rw [Command.run?, h]

theorem run?_of_unreadable (h : read command.path = .error cause) :
    command.run? read = some (.failed (.unreadable command.path cause)) := by
  rw [Command.run?, h]

/-! ## What successful commands print -/

/-- The output lists the tokens: the display form of each on a line of its own, or a document that
is read as the tokens. -/
def ListsTokens (ts : List Token) (stdout : String) : Format → Prop
  | .text => stdout = String.join (ts.map fun t =>
      "<" ++ t.kind.name ++ ": '" ++ t.lexeme ++ "' @ " ++ toString t.position ++ ">\n")
  | .json => (Json.read? stdout).bind tokensOfJson? = some ts

/-- The output shows the tree of the program: its statements as headings four columns in, below a
line for the program, or a document that is read as the program. -/
def ShowsTree (p : Program) (stdout : String) : Format → Prop
  | .text => stdout =
      String.join (("Program" :: headingLines 4 2 6 (headingsOf p.statements)).map (· ++ "\n"))
  | .json => (Json.read? stdout).bind Program.ofJson? = some p

/-- The number of statements that a printed tree shows: the lines four columns in, or the items of
the document's only member. -/
def statementsShown? (stdout : String) : Format → Option Nat
  | .text => some (((lines stdout).map String.ofList).countP (columnOf · = 4))
  | .json => do
    match ← Json.read? stdout with
    | .object [("statements", .array items)] => some items.length
    | _ => none

theorem listsTokens_tokens (ts : List Token) (format : Format) :
    ListsTokens ts (format.tokens ts) format := by
  cases format with
  | text =>
    refine congrArg String.join (List.map_congr_left fun t _ => ?_)
    rw [Token.render, String.append_assoc]
    rfl
  | json =>
    rw [ListsTokens, Format.tokens, Json.read?_text_lineFeed]
    exact tokensOfJson?_tokensToJson ts

theorem showsTree_tree (p : Program) (format : Format) :
    ShowsTree p (format.tree p) format := by
  cases format with
  | text => rw [ShowsTree, Format.tree, Program.outlineText, Program.outline_eq]
  | json =>
    rw [ShowsTree, Format.tree, Json.read?_text_lineFeed]
    exact Program.ofJson?_toJson p

/-- The statements of a program are counted in its printed tree. -/
theorem statementsShown?_tree (h : p.Listable) (format : Format) :
    statementsShown? (format.tree p) format = some p.statements.length := by
  cases format with
  | text =>
    have hlines : (lines p.outlineText).map String.ofList = p.outline ++ [""] := by
      rw [Program.outlineText, lines_join (Program.oneLines_outline h)]
      simp [Function.comp_def]
    have hfirst : columnOf "Program" ≠ 4 := by decide
    have hlast : columnOf "" ≠ 4 := by decide
    rw [statementsShown?, Format.tree, hlines, Program.outline_eq, List.cons_append,
      List.countP_cons, List.countP_append, countP_headingLines (by decide), length_headingsOf]
    simp [hfirst, hlast]
  | json =>
    rw [statementsShown?, Format.tree, Json.read?_text_lineFeed, ← length_nodesToJson]
    rfl

/-! ## Agreement -/

/-- The reports of the three commands on the file at a path agree, where `format` is that of the
tokens and `format'` that of the tree. -/
structure Concord (read : String → Except ReadError String) (path : String)
    (format format' : Format) (tokens tree check : Report) : Prop where
  tokens_succeeds : tokens.Succeeds ↔ ∃ source, read path = .ok source
  tree_succeeds : tree.Succeeds ↔ ∃ p, HoldsProgram read path p
  check_succeeds : check.Succeeds ↔ ∃ p, HoldsProgram read path p
  same_failure : ∀ e, tree.result = .error e ↔ check.result = .error e
  unread : ∀ cause, read path = .error cause → ∃ e, tokens.result = .error e ∧
    check.result = .error e ∧ e.message = "Failed to read " ++ path ++ ": " ++ cause.message
  refused : ∀ source, read path = .ok source → ∀ err, parseSource source = .error err →
    ∃ e d, check.result = .error e ∧ err.diagnostic? source = some d ∧
      e.message = path ++ ": " ++ d
  warned : ∀ source, read path = .ok source → ∃ ws, warnings? source (scan source) = some ws ∧
    List.Forall₂ (WarnsOf source) ws ((scan source).filter Token.isDoubtful) ∧
    tokens.stderr = String.join (ws.map fun w => path ++ ": " ++ w ++ "\n") ∧
    check.stderr = tokens.stderr
  no_warnings : tree.stderr = ""
  listed : ∀ source, read path = .ok source → ListsTokens (scan source) tokens.stdout format
  shown : ∀ p, HoldsProgram read path p → ShowsTree p tree.stdout format'
  silent : ∀ report ∈ [tokens, tree, check], ¬ report.Succeeds → report.stdout = ""
  counted : ∀ count, check.result = .ok count → ∃ p n, HoldsProgram read path p ∧
    n = p.statements.length ∧ statementsShown? tree.stdout format' = some n ∧ count = some n ∧
    check.stdout = "ok: " ++ toString n ++ " statement(s)\n"

/-- All three commands fail on a file that cannot be read. -/
theorem concord_of_unreadable (h : read path = .error cause) :
    Concord read path format format' (.failed (.unreadable path cause))
      (.failed (.unreadable path cause)) (.failed (.unreadable path cause)) := by
  have hmessage : (CommandError.unreadable path cause).message =
      "Failed to read " ++ path ++ ": " ++ cause.message := rfl
  constructor <;> simp [HoldsProgram, h, Report.failed, hmessage]

/-- All three commands succeed on a file that holds a program. -/
theorem concord_of_program (h : read path = .ok source) (hp : parseSource source = .ok p)
    (hws : warnings? source (scan source) = some ws)
    (hwarns : List.Forall₂ (WarnsOf source) ws ((scan source).filter Token.isDoubtful)) :
    Concord read path format format' ⟨format.tokens (scan source), warningLines path ws, .ok none⟩
      ⟨format'.tree p, "", .ok none⟩
      ⟨"ok: " ++ toString p.statements.length ++ " statement(s)\n", warningLines path ws,
        .ok (some p.statements.length)⟩ := by
  have hlistable := (wellFormed_of_parseSource hp).listable
  constructor <;> simp [HoldsProgram, h, hp, hws, hwarns, warningLines, listsTokens_tokens,
    showsTree_tree, statementsShown?_tree hlistable]

/-- The tokens of a file that holds no program are listed, and the other commands fail. -/
theorem concord_of_error {d : String} (h : read path = .ok source)
    (he : parseSource source = .error err) (hd : err.diagnostic? source = some d)
    (hws : warnings? source (scan source) = some ws)
    (hwarns : List.Forall₂ (WarnsOf source) ws ((scan source).filter Token.isDoubtful)) :
    Concord read path format format' ⟨format.tokens (scan source), warningLines path ws, .ok none⟩
      (.failed (.malformed path d)) ⟨"", warningLines path ws, .error (.malformed path d)⟩ := by
  have hmessage : (CommandError.malformed path d).message = path ++ ": " ++ d := rfl
  constructor <;> simp [HoldsProgram, h, he, hd, hws, hwarns, warningLines, listsTokens_tokens,
    Report.failed, hmessage]

/-- The commands on a file have reports, which agree. -/
theorem exists_concord (read : String → Except ReadError String) (path : String)
    (format format' : Format) : ∃ tokens tree check,
      (Command.tokens path format).run? read = some tokens ∧
      (Command.tree path format').run? read = some tree ∧
      (Command.check path).run? read = some check ∧
      Concord read path format format' tokens tree check := by
  cases h : read path with
  | error cause =>
    exact ⟨_, _, _, run?_of_unreadable h, run?_of_unreadable h, run?_of_unreadable h,
      concord_of_unreadable h⟩
  | ok source =>
    obtain ⟨ws, hws, hwarns⟩ := exists_warnings_scan source
    cases hp : parseSource source with
    | ok p =>
      exact ⟨_, _, _, (run?_of_read h).trans (tokensReport?_of_warnings hws),
        (run?_of_read h).trans (treeReport?_of_program hp),
        (run?_of_read h).trans (checkReport?_of_program path hp hws),
        concord_of_program h hp hws hwarns⟩
    | error err =>
      obtain ⟨d, hd⟩ := exists_diagnostic hp
      have hresult := readProgram?_of_error path hp hd
      exact ⟨_, _, _, (run?_of_read h).trans (tokensReport?_of_warnings hws),
        (run?_of_read h).trans (treeReport?_of_error hresult),
        (run?_of_read h).trans (checkReport?_of_error hresult hws),
        concord_of_error h hp hd hws hwarns⟩

/-- Every command has a report, and prints nothing unless it succeeds. -/
theorem exists_run (read : String → Except ReadError String) (command : Command) :
    ∃ report, command.run? read = some report ∧ (¬ report.Succeeds → report.stdout = "") := by
  cases command with
  | tokens path format =>
    obtain ⟨tokens, _, _, hrun, -, -, concord⟩ := exists_concord read path format .text
    exact ⟨tokens, hrun, concord.silent tokens (by simp)⟩
  | tree path format =>
    obtain ⟨_, tree, _, -, hrun, -, concord⟩ := exists_concord read path .text format
    exact ⟨tree, hrun, concord.silent tree (by simp)⟩
  | check path =>
    obtain ⟨_, _, check, -, -, hrun, concord⟩ := exists_concord read path .text .text
    exact ⟨check, hrun, concord.silent check (by simp)⟩

/-- The three commands on a file agree, whatever it holds. Each command has a report, prints nothing
where it fails, and is the one whose output and success the program passes on, however the program
reads its arguments. -/
theorem commands_agree :
    (∀ (read : String → Except ReadError String) path format format', ∃ tokens tree check,
      (Command.tokens path format).run? read = some tokens ∧
      (Command.tree path format').run? read = some tree ∧
      (Command.check path).run? read = some check ∧
      Concord read path format format' tokens tree check) ∧
    ∀ (read : String → Except ReadError String) command, ∃ report,
      command.run? read = some report ∧ (¬ report.Succeeds → report.stdout = "") ∧
      ∀ (parse : List String → Except ExitReport Command) args, parse args = .ok command →
        ∃ exit, runProgram? parse read args = some exit ∧ exit.stdout = report.stdout ∧
          (exit.code = 0 ↔ report.Succeeds) ∧ (exit.code = 1 ↔ ¬ report.Succeeds) := by
  refine ⟨exists_concord, fun read command => ?_⟩
  obtain ⟨report, hreport, hsilent⟩ := exists_run read command
  refine ⟨report, hreport, hsilent, fun parse args hargs => ?_⟩
  refine ⟨report.exit, ?_, exit_spec report⟩
  rw [runProgram?, hargs]
  exact Option.map_eq_some_iff.mpr ⟨report, hreport, rfl⟩

/-- Of three files, one holds a program of two statements, one has a stray parenthesis, and one does
not exist. -/
theorem agreement_on_three_files :
    let read : String → Except ReadError String := fun path =>
      if path = "good.pocl" then .ok "f(a, b)\nx = 1"
      else if path = "bad.pocl" then .ok "f(a) )"
      else .error .notFound
    let parse : List String → Except ExitReport Command := fun args =>
      match args with
      | ["check", path] => .ok (.check path)
      | _ => .error ⟨2, "", "Usage: check PATH\n"⟩
    let p : Program :=
      ⟨[.functionCall "f" [.identifier "a", .identifier "b"], .assignment "x" (.number "1")]⟩
    (∃ tokens tree tree' check exit, (Command.tokens "good.pocl" .text).run? read = some tokens ∧
      (Command.tree "good.pocl" .text).run? read = some tree ∧
      (Command.tree "good.pocl" .json).run? read = some tree' ∧
      (Command.check "good.pocl").run? read = some check ∧
      runProgram? parse read ["check", "good.pocl"] = some exit ∧
      tokens.stdout = "<IDENTIFIER: 'f' @ 1>\n<PAREN: '(' @ 2>\n<IDENTIFIER: 'a' @ 3>\n" ++
        "<UNKNOWN: ',' @ 4>\n<IDENTIFIER: 'b' @ 6>\n<PAREN: ')' @ 7>\n<IDENTIFIER: 'x' @ 9>\n" ++
        "<OPERATOR: '=' @ 11>\n<LITERAL: '1' @ 13>\n" ∧
      tokens.stderr = "good.pocl: warning at line 1, col 4: unrecognized character ','\n" ∧
      check.stderr = tokens.stderr ∧ tree.stderr = "" ∧
      tree.stdout = "Program\n    FunctionCall\n      Name:\n            Identifier: f\n" ++
        "      Arguments:\n            Identifier: a\n            Identifier: b\n" ++
        "    Assignment\n      Target:\n            Identifier: x\n" ++
        "      Value:\n            Number: 1\n" ∧
      (Json.read? tree'.stdout).bind Program.ofJson? = some p ∧
      statementsShown? tree.stdout .text = some 2 ∧ statementsShown? tree'.stdout .json = some 2 ∧
      check.stdout = "ok: 2 statement(s)\n" ∧ exit.stdout = check.stdout ∧ exit.code = 0) ∧
    (∃ tokens tree check exit e, (Command.tokens "bad.pocl" .json).run? read = some tokens ∧
      (Command.tree "bad.pocl" .json).run? read = some tree ∧
      (Command.check "bad.pocl").run? read = some check ∧
      runProgram? parse read ["check", "bad.pocl"] = some exit ∧ tokens.Succeeds ∧
      tree.result = .error e ∧ check.result = .error e ∧
      e.message = "bad.pocl: error at line 1, col 6: unexpected token <PAREN: ')' @ 6>" ∧
      exit.stdout = "" ∧ exit.code = 1) ∧
    ∃ tokens check e, (Command.tokens "missing.pocl" .text).run? read = some tokens ∧
      (Command.check "missing.pocl").run? read = some check ∧
      tokens.result = .error e ∧ check.result = .error e ∧
      e.message = "Failed to read missing.pocl: No such file or directory (os error 2)" := by
  intro read parse p
  have hscan : scan "f(a, b)\nx = 1" = [⟨.identifier, "f", 1⟩, ⟨.paren, "(", 2⟩,
      ⟨.identifier, "a", 3⟩, ⟨.unknown, ",", 4⟩, ⟨.identifier, "b", 6⟩, ⟨.paren, ")", 7⟩,
      ⟨.identifier, "x", 9⟩, ⟨.operator, "=", 11⟩, ⟨.literal, "1", 13⟩] := by decide +kernel
  have hscan' : scan "f(a) )" = [⟨.identifier, "f", 1⟩, ⟨.paren, "(", 2⟩, ⟨.identifier, "a", 3⟩,
      ⟨.paren, ")", 4⟩, ⟨.paren, ")", 6⟩] := by decide +kernel
  have hp : parseSource "f(a, b)\nx = 1" = .ok p := by
    rw [parseSource, hscan]
    cbv
  have he : parseSource "f(a) )" = .error (.unexpected (some ⟨.paren, ")", 6⟩)) := by
    rw [parseSource, hscan']
    cbv
  have hdiagnostic : ParseError.diagnostic? "f(a) )" (.unexpected (some ⟨.paren, ")", 6⟩)) =
      some "error at line 1, col 6: unexpected token <PAREN: ')' @ 6>" := by decide +kernel
  have hgood : read "good.pocl" = .ok "f(a, b)\nx = 1" := rfl
  have hbad : read "bad.pocl" = .ok "f(a) )" := rfl
  have holds : HoldsProgram read "good.pocl" p := ⟨_, hgood, hp⟩
  have hwarnings : warnings? "f(a, b)\nx = 1" (scan "f(a, b)\nx = 1") =
      some ["warning at line 1, col 4: unrecognized character ','"] := by decide +kernel
  refine ⟨?_, ?_, ?_⟩
  · obtain ⟨tokens, tree, check, htokens, htree, hcheck, concord⟩ :=
      commands_agree.1 read "good.pocl" .text .text
    obtain ⟨_, tree', check', -, htree', hcheck', concord'⟩ :=
      commands_agree.1 read "good.pocl" .json .json
    obtain rfl : check = check' := Option.some.inj (hcheck.symm.trans hcheck')
    obtain ⟨report, hreport, -, runs⟩ := commands_agree.2 read (.check "good.pocl")
    obtain rfl : check = report := Option.some.inj (hcheck.symm.trans hreport)
    obtain ⟨exit, hexit, hstdout, hcode, -⟩ := runs parse ["check", "good.pocl"] rfl
    obtain ⟨count, hcount⟩ := concord.check_succeeds.mpr ⟨p, holds⟩
    obtain ⟨q, n, hq, rfl, hshown, -, hprinted⟩ := concord.counted count hcount
    obtain rfl := hq.eq holds
    obtain ⟨q', n', hq', rfl, hshown', -⟩ := concord'.counted count hcount
    obtain rfl := hq'.eq holds
    obtain ⟨ws, hws, -, hstderr, hstderr'⟩ := concord.warned _ hgood
    obtain rfl := Option.some.inj (hws.symm.trans hwarnings)
    refine ⟨tokens, tree, tree', check, exit, htokens, htree, htree', hcheck, hexit,
      (concord.listed _ hgood).trans ?_, hstderr, hstderr', concord.no_warnings,
      (concord.shown p holds).trans ?_, concord'.shown p holds, hshown, hshown',
      hprinted.trans ?_, hstdout, hcode.mpr ⟨count, hcount⟩⟩
    · rw [hscan]
      decide +kernel
    · decide +kernel
    · decide +kernel
  · obtain ⟨tokens, tree, check, htokens, htree, hcheck, concord⟩ :=
      commands_agree.1 read "bad.pocl" .json .json
    obtain ⟨report, hreport, hsilent, runs⟩ := commands_agree.2 read (.check "bad.pocl")
    obtain rfl : check = report := Option.some.inj (hcheck.symm.trans hreport)
    obtain ⟨exit, hexit, hstdout, -, hcode⟩ := runs parse ["check", "bad.pocl"] rfl
    obtain ⟨e, d, hcheck', hd, hmessage⟩ := concord.refused _ hbad _ he
    have hfails : ¬ check.Succeeds := by
      rintro ⟨count, hcount⟩
      cases hcheck'.symm.trans hcount
    refine ⟨tokens, tree, check, exit, e, htokens, htree, hcheck, hexit,
      concord.tokens_succeeds.mpr ⟨_, hbad⟩, (concord.same_failure e).mpr hcheck', hcheck',
      hmessage.trans ?_, hstdout.trans (hsilent hfails), hcode.mpr hfails⟩
    obtain rfl := Option.some.inj (hd.symm.trans hdiagnostic)
    rfl
  · obtain ⟨tokens, _, check, htokens, -, hcheck, concord⟩ :=
      commands_agree.1 read "missing.pocl" .text .text
    obtain ⟨e, htokens', hcheck', hmessage⟩ := concord.unread .notFound rfl
    exact ⟨tokens, check, e, htokens, hcheck, htokens', hcheck', hmessage⟩

/-! ## Slices -/

/-- **No slice of a source fails.** Scanning by byte offsets, where every character and every text
is read from a slice, answers with the tokens of the source. A location is read from slices exactly
where one is given, and the offsets at which the tokens and the token of a parse error begin stand
between characters. So there are warnings, a diagnostic for every parse error and a report of every
command that can read its file. -/
theorem no_slice_fails (source : String) :
    scanSlices? source 0 = some (scan source) ∧
    (∀ offset, Location.ofSlices? source offset = Location.ofOffset? source offset) ∧
    (∀ t ∈ scan source, String.Pos.Raw.IsValid source ⟨t.start⟩ ∧
      ∃ place, Location.ofSlices? source t.start = some place) ∧
    (∀ e t, parseSource source = .error e → e.found = some t →
      String.Pos.Raw.IsValid source ⟨t.start⟩ ∧
        ∃ place, Location.ofSlices? source t.start = some place) ∧
    (∃ ws, warnings? source (scan source) = some ws) ∧
    (∀ e, parseSource source = .error e → ∃ diagnostic, e.diagnostic? source = some diagnostic) ∧
    ∀ (command : Command) (read : String → Except ReadError String),
      read command.path = .ok source → ∃ report, command.run? read = some report := by
  have located : ∀ t ∈ scan source, String.Pos.Raw.IsValid source ⟨t.start⟩ ∧
      ∃ place, Location.ofSlices? source t.start = some place := by
    intro t ht
    obtain ⟨place, hplace, -⟩ := exists_pointsAt_of_mem_scan ht
    exact ⟨isValid_start_of_mem_scan ht, place,
      (Location.ofSlices?_eq_ofOffset? source t.start).trans hplace⟩
  obtain ⟨ws, hws, -⟩ := exists_warnings_scan source
  exact ⟨scanSlices?_eq_scan source, Location.ofSlices?_eq_ofOffset? source, located,
    fun e t h ht => located t (found_mem_of_parse_error h ht), ⟨ws, hws⟩,
    fun e => exists_diagnostic,
    fun command read _ => (exists_run read command).imp fun _ => And.left⟩

/-- Two words of two bytes each: parsing stops at the second one, which begins at the byte 3. -/
theorem no_slice_fails_at_second_word :
    let source := "é é"
    let word : Token := ⟨.identifier, "é", 5⟩
    let e : ParseError := .mismatch ⟨.operator, some "="⟩ (some word)
    parseSource source = .error e ∧ word ∈ scan source ∧
      String.Pos.Raw.IsValid source ⟨3⟩ ∧ ¬ String.Pos.Raw.IsValid source ⟨4⟩ ∧
      (∃ diagnostic, e.diagnostic? source = some diagnostic) ∧
      ∃ report, (Command.check "words.pocl").run? (fun _ => .ok source) = some report := by
  intro source word e
  have hscan : scan source = [⟨.identifier, "é", 2⟩, word] := by decide +kernel
  have h : parseSource source = .error e := by
    rw [parseSource, hscan]
    cbv
  have hmem : word ∈ scan source := found_mem_of_parse_error h rfl
  obtain ⟨-, -, located, -, -, diagnostics, reports⟩ := no_slice_fails source
  exact ⟨h, hmem, (located word hmem).1, by decide +kernel, diagnostics e h,
    reports (.check "words.pocl") (fun _ => .ok source) rfl⟩

end Pocl
