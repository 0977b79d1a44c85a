import Pocl.Proofs.Grammar.Cursor
import Pocl.Proofs.Grammar.Following

/-!
# Reading with a cursor ends

A step moves the cursor over one token or leaves it where it is, and every reading follows a rule.
So each reading ends, from every cursor in every list, and the cursor only moves forward. A depth of
six calls for each place from the cursor on is enough, and a greater depth changes nothing. In
particular the rules, whose recursion is bounded by the tokens left, cut no reading off.

## Main definitions

* `StepsTakeOrStay`: how the single steps move the cursor
* `Ends m ts a`: the reading `m` ends from the cursor `a` on, within the list
* `LoopsEnd ts a depth`: every loop ends from the cursor `a` on
* `RuleName.reading`: the rules, read with a cursor

## Main results

* `RuleName.reading_spec`: where a rule leaves the cursor
* `readings_end`: every reading ends, and the cursor only moves forward
-/

namespace Pocl

namespace Grammar

namespace Reading

variable {α : Type} {m : Reading α} {r : Rule α} {ts : List Token} {a depth : Nat}

/-! ## Single steps -/

/-- Looking at a token never moves the cursor, and a step moves it over a token that it takes, and
otherwise not at all. -/
structure StepsTakeOrStay : Prop where
  stands (kind : TokenKind) (lexeme : String) (s : Cursor) :
    stands kind lexeme s = some (.ok (s.token?.any (·.is kind lexeme)), s)
  eat? (kind : TokenKind) (lexeme : String) :
    TakesOrStays (eat? kind lexeme) (·.is kind lexeme) (some ·.lexeme) fun _ => .ok none
  eatSeparator? : TakesOrStays eatSeparator? (·.lexeme = ",") (some ·.lexeme) fun _ => .ok none
  eatOperator? (operators : List String) :
    TakesOrStays (eatOperator? operators)
      (fun t => t.kind = .operator && operators.contains t.lexeme) (some ·.lexeme) fun _ => .ok none
  expect (kind : TokenKind) (lexeme : String) :
    TakesOrStays (expect kind lexeme) (·.is kind lexeme) (fun _ => ()) fun s =>
      .error (.mismatch ⟨kind, some lexeme⟩ s.token?)
  expectIdentifier :
    TakesOrStays expectIdentifier (·.kind = .identifier) (·.lexeme) fun s =>
      .error (.mismatch ⟨.identifier, none⟩ s.token?)

theorem stepsTakeOrStay : StepsTakeOrStay where
  stands := stands_eq
  eat? _ _ := takesOrStays_eatIf? _
  eatSeparator? := takesOrStays_eatIf? _
  eatOperator? _ := takesOrStays_eatIf? _
  expect _ _ := takesOrStays_eatIf?_bind (fun _ => ()) (fun _ _ => rfl) (mismatch_eq _)
  expectIdentifier := takesOrStays_eatIf?_bind id (fun _ _ => rfl) (mismatch_eq _)

/-! ## Ends -/

/-- The reading ends, and the cursor has not moved back nor beyond the last token. -/
def Ends (m : Reading α) (ts : List Token) (a : Nat) : Prop :=
  ∃ x b, m ⟨ts, a⟩ = some (x, ⟨ts, b⟩) ∧ a ≤ b ∧ b ≤ ts.length

theorem Follows.ends (h : Follows m r ts a) (ha : a ≤ ts.length) : Ends m ts a := by
  obtain ⟨b, hab, hb, -, hm⟩ := h ha
  exact ⟨_, b, hm, hab, hb⟩

/-- Every loop ends from the cursor `a` on, whatever has been read before. -/
structure LoopsEnd (ts : List Token) (a depth : Nat) : Prop where
  chainLoop (tier : Tier) (left : Node) : Ends (chainLoop depth tier left) ts a
  argumentLoop (args : List Node) : Ends (argumentLoop depth args) ts a
  parameterLoop (params : List String) : Ends (parameterLoop depth params) ts a
  blockLoop (body : List Node) : Ends (blockLoop depth body) ts a
  programLoop (trees : List Node) : Ends (programLoop depth trees) ts a

theorem loopsEnd (room : Room ts a 6 depth) (ha : a ≤ ts.length) : LoopsEnd ts a depth where
  chainLoop tier left := ((followsExpressions room).chainLoop tier left).ends ha
  argumentLoop args := ((followsExpressions room).argumentLoop args).ends ha
  parameterLoop params := (followsLoop_parameterLoop (room.mono (by decide)) params).ends ha
  blockLoop body := ((followsStatements room).blockLoop body).ends ha
  programLoop trees := (followsLoop_programLoop room trees).ends ha

/-- Six calls for each place from the cursor on, the one behind the last token included. -/
theorem room_of_le (h : 6 * (ts.length - a + 1) ≤ depth) : Room ts a 6 depth := by
  rw [Room]
  omega

end Reading

namespace RuleName

open Reading

variable {ts : List Token} {a depth : Nat}

/-- The rule of that name, read with a cursor. -/
def reading (depth : Nat) : (f : RuleName) → Reading f.Value
  | statement => Reading.statement depth
  | functionDecl => Reading.functionDecl depth
  | ifStatement => Reading.ifStatement depth
  | printStatement => Reading.printStatement depth
  | assignmentOrCall => Reading.assignmentOrCall depth
  | block => Reading.block depth
  | arguments => Reading.arguments depth
  | expression => Reading.expression depth
  | chain tier => Reading.chain depth tier
  | primary => Reading.primary depth

theorem follows_reading (f : RuleName) (room : Room ts a 6 depth) :
    Follows (f.reading depth) (Rule.erase f.read) ts a := by
  cases f with
  | statement => exact (followsStatements room).statement
  | functionDecl => exact (followsStatements room).functionDecl
  | ifStatement => exact (followsStatements room).ifStatement
  | printStatement => exact follows_printStatement (room.mono (Nat.zero_le _))
  | assignmentOrCall => exact follows_assignmentOrCall (room.mono (Nat.zero_le _))
  | block => exact (followsStatements room).block
  | arguments => exact (followsExpressions room).arguments
  | expression => exact follows_expression room
  | chain tier => exact (followsExpressions room).chain tier
  | primary => exact (followsExpressions room).primary

/-- A rule that is read from a cursor on ends as `readAt` says. It leaves the list as it is. With a
value, the cursor has moved on, and with an error, it is in front of the token that the error
reports. -/
theorem reading_spec (f : RuleName) (room : Room ts a 6 depth) (ha : a ≤ ts.length) :
    (∃ v b, f.reading depth ⟨ts, a⟩ = some (.ok v, ⟨ts, b⟩) ∧ f.readAt ts a = .ok (v, b) ∧
      a < b ∧ b ≤ ts.length) ∨
    ∃ e c, f.reading depth ⟨ts, a⟩ = some (.error e, ⟨ts, c⟩) ∧ f.readAt ts a = .error (e, c) ∧
      a ≤ c ∧ c ≤ ts.length ∧ e.found = ts[c]? := by
  obtain ⟨b, hab, hb, hleft, hreading⟩ := f.follows_reading room ha
  have hlength : ts.length - (ts.drop b).length = b := by
    rw [List.length_drop]
    omega
  rw [Rule.erase] at hleft hreading
  rw [readAt]
  cases hread : f.read (ts.drop a) with
  | ok p =>
    rw [hread] at hleft hreading
    have hrest : p.rest = ts.drop b := hleft
    have hlt := p.rest_lt
    rw [hrest, List.length_drop, List.length_drop] at hlt
    refine .inl ⟨p.value, b, hreading, ?_, by omega, hb⟩
    simp only [hrest, hlength]
  | error failure =>
    rw [hread] at hleft hreading
    have hrest : failure.rest = ts.drop b := hleft
    refine .inr ⟨failure.error, b, hreading, ?_, hab, hb, ?_⟩
    · simp only [hrest, hlength]
    · rw [Failure.found_error, hrest, List.head?_drop]

end RuleName

end Grammar

open Grammar Reading

/-- **Every reading ends, and the cursor only moves forward.** From a cursor in a list, each rule of
the grammar ends as it does on the tokens from there on, and the list stays as it is. With a value,
the cursor has moved on by a token or more. With an error, it is in front of the token that the
error reports, or behind the last one where the error reports none. A step that does not match
leaves the cursor where it is. So all loops end, whatever they have read before, and the program
that a token list spells, or the first error in it, is found by reading it with a cursor. Calls and
rounds of loops never nest more than six deep for each place from the cursor on. -/
theorem readings_end :
    (∀ (f : RuleName) (ts : List Token) (a depth : Nat), a ≤ ts.length →
      6 * (ts.length - a + 1) ≤ depth →
      (∃ v b, f.reading depth ⟨ts, a⟩ = some (.ok v, ⟨ts, b⟩) ∧ f.readAt ts a = .ok (v, b) ∧
        a < b ∧ b ≤ ts.length) ∨
      ∃ e c, f.reading depth ⟨ts, a⟩ = some (.error e, ⟨ts, c⟩) ∧ f.readAt ts a = .error (e, c) ∧
        a ≤ c ∧ c ≤ ts.length ∧ e.found = ts[c]?) ∧
    StepsTakeOrStay ∧
    (∀ (ts : List Token) (a depth : Nat), a ≤ ts.length → 6 * (ts.length - a + 1) ≤ depth →
      LoopsEnd ts a depth) ∧
    ∀ (ts : List Token) (depth : Nat), 6 * (ts.length + 1) ≤ depth →
      Reading.parse depth ts = some (parse ts) :=
  ⟨fun f _ _ _ ha hdepth => f.reading_spec (room_of_le hdepth) ha, stepsTakeOrStay,
    fun _ _ _ ha hdepth => loopsEnd (room_of_le hdepth) ha,
    fun _ _ hdepth => parse_eq (room_of_le hdepth)⟩

/-- The call `f(g(1 + )` is read up to the parenthesis that stands for an operand. The number is
read as an operand, and a loop over arguments ends behind the last token. -/
theorem readings_of_missing_operand :
    let r : Token := ⟨.paren, ")", 9⟩
    let ts : List Token := [⟨.identifier, "f", 1⟩, ⟨.paren, "(", 2⟩, ⟨.identifier, "g", 3⟩,
      ⟨.paren, "(", 4⟩, ⟨.literal, "1", 5⟩, ⟨.operator, "+", 7⟩, r]
    RuleName.statement.reading 48 ⟨ts, 0⟩ = some (.error (.unexpected (some r)), ⟨ts, 6⟩) ∧
      ts[6]? = some r ∧
      RuleName.primary.reading 24 ⟨ts, 4⟩ = some (.ok (.number "1"), ⟨ts, 5⟩) ∧
      (∃ x b, argumentLoop 6 [] ⟨ts, 7⟩ = some (x, ⟨ts, b⟩) ∧ 7 ≤ b ∧ b ≤ 7) ∧
      Reading.parse 48 ts = some (.error (.unexpected (some r))) := by
  intro r ts
  have hstatement : RuleName.statement.readAt ts 0 = .error (.unexpected (some r), 6) := by cbv
  have hprimary : RuleName.primary.readAt ts 4 = .ok (.number "1", 5) := by cbv
  have hparse : parse ts = .error (.unexpected (some r)) := by cbv
  obtain ⟨rules, -, loops, programs⟩ := readings_end
  refine ⟨?_, rfl, ?_, (loops ts 7 6 (by decide) (by decide)).argumentLoop [],
    (programs ts 48 (by decide)).trans (congrArg some hparse)⟩
  · have hends := rules .statement ts 0 48 (by decide) (by decide)
    rcases hends with ⟨v, b, -, hread, -⟩ | ⟨e, c, hend, hread, -⟩
    · cases hread.symm.trans hstatement
    · cases hread.symm.trans hstatement
      exact hend
  · have hends := rules .primary ts 4 24 (by decide) (by decide)
    rcases hends with ⟨v, b, hend, hread, -⟩ | ⟨e, c, -, hread, -⟩
    · cases hread.symm.trans hprimary
      exact hend
    · cases hread.symm.trans hprimary

end Pocl
