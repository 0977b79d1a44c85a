import Pocl.Grammar.Reading
import Pocl.Proofs.Grammar.Lookahead

/-!
# How a reading follows a rule

A reading moves a cursor through a list, and a rule reads from the front of the tokens from the
cursor on. Both take the same steps in the same order. So a reading ends where the rule does, with
the same answer, and the cursor is then in front of the tokens that the rule leaves. Wherever a loop
or a rule is entered again, the cursor has moved before, and it stays within the list. Until it
moves, no more than six calls nest, and so by induction on the tokens from the cursor on, a depth of
six for each of them is enough for every reading to end.

## Main definitions

* `TakesOrStays m q taken missed`: the step `m` takes a token that passes the test `q`, or stays
* `Follows m r ts a`: the reading `m` ends from the cursor `a` on as the rule `r` does
* `FollowsLoop m r ts a`: the loop `m` appends what the rule `r` reads
* `Room ts a calls depth`: the calls before the cursor moves, and six for each later place, fit in
  the depth

## Main results

* `Follows.bind`, `follows_eatIf?_bind`: sequences are followed step by step
* `followsExpressions`, `followsStatements`, `followsLoop_programLoop`: every rule is followed from
  every cursor on
-/

namespace Pocl.Grammar.Reading

variable {α β : Type} {m : Reading α} {k : α → Reading β} {r : Rule α} {k' : α → Rule β}
  {s s' : Cursor} {ts : List Token} {a b calls depth : Nat} {t : Token}
  {p : TokenKind × String → Bool} {q : Token → Bool}

/-! ## Steps -/

theorem bind_ok {v : α} (h : m s = some (.ok v, s')) : (m >>= k) s = k v s' := by
  show StateT.bind m (ExceptT.bindCont k) s = _
  rw [StateT.bind, h]
  rfl

theorem bind_error {e : ParseError} (h : m s = some (.error e, s')) :
    (m >>= k) s = some (.error e, s') := by
  show StateT.bind m (ExceptT.bindCont k) s = _
  rw [StateT.bind, h]
  rfl

theorem peek_eq (s : Cursor) : peek s = some (.ok s.token?, s) := rfl

theorem advance_eq (h : s.token? = some t) : advance s = some (.ok (), s.next) := by
  rw [advance, bind_ok (peek_eq s), h]
  rfl

theorem stands_eq (kind : TokenKind) (lexeme : String) (s : Cursor) :
    stands kind lexeme s = some (.ok (s.token?.any (·.is kind lexeme)), s) := rfl

theorem mismatch_eq (expected : Expected) (s : Cursor) :
    (mismatch expected : Reading α) s = some (.error (.mismatch expected s.token?), s) := rfl

theorem unexpected_eq (s : Cursor) :
    (unexpected : Reading α) s = some (.error (.unexpected s.token?), s) := rfl

/-- The step takes the token in front of the cursor if it passes the test, and ends with `taken` of
it. Otherwise it ends with `missed`, and the cursor stays where it is. -/
def TakesOrStays (m : Reading α) (q : Token → Bool) (taken : Token → α)
    (missed : Cursor → Except ParseError α) : Prop :=
  ∀ s, m s = match s.token?.filter q with
    | some t => some (.ok (taken t), s.next)
    | none => some (missed s, s)

theorem takesOrStays_eatIf? (q : Token → Bool) :
    TakesOrStays (eatIf? q) q (fun t => some t.lexeme) fun _ => .ok none := by
  intro s
  rw [eatIf?, bind_ok (peek_eq s)]
  cases h : s.token?.filter q with
  | none => rfl
  | some t => exact bind_ok (advance_eq (Option.filter_eq_some_iff.mp h).1)

/-- A step that goes on with the lexeme it has taken, without moving the cursor again. -/
theorem takesOrStays_eatIf?_bind {k : Option String → Reading α} (taken : String → α)
    {missed : Cursor → Except ParseError α}
    (hsome : ∀ lexeme s, k (some lexeme) s = some (.ok (taken lexeme), s))
    (hnone : ∀ s, k none s = some (missed s, s)) :
    TakesOrStays (eatIf? q >>= k) q (fun t => taken t.lexeme) missed := by
  intro s
  have heat := takesOrStays_eatIf? q s
  cases h : s.token?.filter q with
  | none =>
    rw [h] at heat
    exact (bind_ok heat).trans (hnone s)
  | some t =>
    rw [h] at heat
    exact (bind_ok heat).trans (hsome t.lexeme s.next)

/-! ## Following a rule -/

/-- The answer of a rule, where an error reports the first of the tokens left. -/
def answer : EStateM.Result (Option Expected) (List Token) α → Except ParseError α
  | .ok v _ => .ok v
  | .error e rest => .error (Failure.error ⟨e, rest⟩)

/-- The reading `m` ends as the rule `r` does on the tokens from the cursor on, and it leaves the
cursor in front of the tokens that the rule leaves. -/
def Follows (m : Reading α) (r : Rule α) (ts : List Token) (a : Nat) : Prop :=
  a ≤ ts.length → ∃ b, a ≤ b ∧ b ≤ ts.length ∧ Rule.left (r (ts.drop a)) = ts.drop b ∧
    m ⟨ts, a⟩ = some (answer (r (ts.drop a)), ⟨ts, b⟩)

theorem follows_pure (v : α) : Follows (pure v) (pure v) ts a :=
  fun ha => ⟨a, Nat.le_refl _, ha, rfl, rfl⟩

theorem follows_mismatch (expected : Expected) :
    Follows (mismatch expected : Reading α) (Rule.stop (some expected)) ts a := by
  refine fun ha => ⟨a, Nat.le_refl _, ha, rfl, ?_⟩
  rw [mismatch_eq, Rule.stop, answer, Failure.error, List.head?_drop]
  rfl

theorem follows_unexpected : Follows (unexpected : Reading α) (Rule.stop none) ts a := by
  refine fun ha => ⟨a, Nat.le_refl _, ha, rfl, ?_⟩
  rw [unexpected_eq, Rule.stop, answer, Failure.error, List.head?_drop]
  rfl

theorem Follows.bind_of_ok (h : Follows m r ts a)
    (hk : ∀ v b, a ≤ b → b ≤ ts.length → r (ts.drop a) = .ok v (ts.drop b) →
      Follows (k v) (k' v) ts b) : Follows (m >>= k) (r >>= k') ts a := by
  intro ha
  obtain ⟨b, hab, hb, hleft, hm⟩ := h ha
  cases hr : r (ts.drop a) with
  | error e rest =>
    rw [hr] at hleft hm
    rw [Rule.bind_of_error hr]
    exact ⟨b, hab, hb, hleft, bind_error hm⟩
  | ok v rest =>
    rw [hr] at hleft hm
    obtain rfl : rest = ts.drop b := hleft
    obtain ⟨c, hbc, hc, hleft', hk⟩ := hk v b hab hb hr hb
    rw [Rule.bind_of_ok hr]
    exact ⟨c, Nat.le_trans hab hbc, hc, hleft', (bind_ok hm).trans hk⟩

/-- A sequence is followed step by step. -/
theorem Follows.bind (h : Follows m r ts a)
    (hk : ∀ v b, a ≤ b → b ≤ ts.length → Follows (k v) (k' v) ts b) :
    Follows (m >>= k) (r >>= k') ts a :=
  h.bind_of_ok fun v b hab hb _ => hk v b hab hb

/-- A sequence that ends with a value. -/
theorem Follows.last (h : Follows m r ts a) (f : α → β) :
    Follows (m >>= fun v => pure (f v)) (r >>= fun v => pure (f v)) ts a :=
  h.bind fun _ _ _ _ => follows_pure _

/-- Behind a rule with a bound, the cursor has moved. -/
theorem Follows.erase_bind {r : (ts : List Token) → Answer α ts.length}
    (h : Follows m (Rule.erase r) ts a)
    (hk : ∀ v b, a < b → b ≤ ts.length → Follows (k v) (k' v) ts b) :
    Follows (m >>= k) (Rule.erase r >>= k') ts a := by
  refine h.bind_of_ok fun v b hab hb hr => hk v b ?_ hb
  have hlt := Rule.length_rest_lt_of_erase hr
  rw [List.length_drop, List.length_drop] at hlt
  omega

/-- Looking at the token in front of the cursor. -/
theorem follows_peek_bind {k : Option Token → Reading α} {r : Rule α}
    (h : Follows (k ts[a]?) r ts a) : Follows (peek >>= k) r ts a := by
  intro ha
  rw [bind_ok (peek_eq _)]
  exact h ha

theorem follows_look {m : Reading α} {k' : Option (TokenKind × String) → Rule α}
    (h : Follows m (k' (ts[a]?.map Token.form)) ts a) : Follows m (Rule.look >>= k') ts a := by
  intro ha
  rw [Rule.look_bind, Rule.next, List.head?_drop]
  exact h ha

theorem follows_stands_bind {k : Bool → Reading α} {r : Rule α} {kind : TokenKind} {lexeme : String}
    (h : Follows (k (ts[a]?.any (·.is kind lexeme))) r ts a) :
    Follows (stands kind lexeme >>= k) r ts a := by
  intro ha
  rw [bind_ok (stands_eq kind lexeme _)]
  exact h ha

/-- What a reading follows is settled by what the rule does on the tokens from the cursor on. -/
theorem Follows.congr {r' : Rule α} (h : Follows m r ts a)
    (hr : r' (ts.drop a) = r (ts.drop a)) : Follows m r' ts a := by
  rwa [Follows, hr]

theorem drop_eq_cons (h : ts[a]? = some t) : ts.drop a = t :: ts.drop (a + 1) := by
  obtain ⟨hlt, rfl⟩ := List.getElem?_eq_some_iff.mp h
  exact List.drop_eq_getElem_cons hlt

theorem take?_bind_drop {k' : Option String → Rule α} (ht : ts[a]? = some t)
    (hp : p t.form = true) :
    (Rule.take? p >>= k') (ts.drop a) = k' (some t.lexeme) (ts.drop (a + 1)) := by
  rw [drop_eq_cons ht, Rule.bind_of_ok (Rule.take?_pos hp)]

/-- Moving over a token that a rule takes. -/
theorem follows_advance_bind {m : Reading α} {k' : Option String → Rule α} (ht : ts[a]? = some t)
    (hp : p t.form = true) (h : Follows m (k' (some t.lexeme)) ts (a + 1)) :
    Follows (advance >>= fun _ => m) (Rule.take? p >>= k') ts a := by
  intro ha
  have hlt := (List.getElem?_eq_some_iff.mp ht).1
  obtain ⟨b, hab, hb, hleft, hm⟩ := h hlt
  rw [take?_bind_drop ht hp]
  have hadvance : advance ⟨ts, a⟩ = some (.ok (), ⟨ts, a + 1⟩) := advance_eq ht
  exact ⟨b, Nat.le_of_succ_le hab, hb, hleft, (bind_ok hadvance).trans hm⟩

/-- Leaving a token that a rule does not take. -/
theorem follows_skip {m : Reading α} {k' : Option String → Rule α}
    (hp : ∀ t, ts[a]? = some t → p t.form = false) (h : Follows m (k' none) ts a) :
    Follows m (Rule.take? p >>= k') ts a := by
  have htake : Rule.take? p (ts.drop a) = .ok none (ts.drop a) := by
    cases ht : ts[a]? with
    | none => rw [List.drop_eq_nil_of_le (List.getElem?_eq_none_iff.mp ht), Rule.take?]
    | some t => rw [drop_eq_cons ht, Rule.take?_neg (hp t ht)]
  intro ha
  rw [Rule.bind_of_ok htake]
  exact h ha

theorem follows_skip_end {m : Reading α} {k' : Option String → Rule α} (ht : ts[a]? = none)
    (h : Follows m (k' none) ts a) : Follows m (Rule.take? p >>= k') ts a :=
  follows_skip (by simp [ht]) h

theorem follows_skip_token {m : Reading α} {k' : Option String → Rule α} (ht : ts[a]? = some t)
    (hp : p t.form = false) (h : Follows m (k' none) ts a) : Follows m (Rule.take? p >>= k') ts a :=
  follows_skip (by simpa [ht] using hp) h

/-- Taking a token, or leaving the one in front of the cursor. -/
theorem follows_eatIf?_bind {k : Option String → Reading α} {k' : Option String → Rule α}
    (hq : ∀ t, q t = p t.form)
    (hsome : ∀ lexeme, a < ts.length → Follows (k (some lexeme)) (k' (some lexeme)) ts (a + 1))
    (hnone : Follows (k none) (k' none) ts a) :
    Follows (eatIf? q >>= k) (Rule.take? p >>= k') ts a := by
  cases hfilter : (⟨ts, a⟩ : Cursor).token?.filter q with
  | none =>
    have heat : eatIf? q ⟨ts, a⟩ = some (.ok none, ⟨ts, a⟩) := by
      rw [takesOrStays_eatIf? q, hfilter]
    have hskip : Follows (k none) (Rule.take? p >>= k') ts a := by
      refine follows_skip (fun t ht => ?_) hnone
      rw [← hq]
      exact Bool.eq_false_iff.mpr (Option.filter_eq_none_iff.mp hfilter t ht)
    intro ha
    rw [bind_ok heat]
    exact hskip ha
  | some t =>
    obtain ⟨ht, hqt⟩ := Option.filter_eq_some_iff.mp hfilter
    have heat : eatIf? q ⟨ts, a⟩ = some (.ok (some t.lexeme), ⟨ts, a + 1⟩) := by
      rw [takesOrStays_eatIf? q, hfilter]
      rfl
    have hlt := (List.getElem?_eq_some_iff.mp ht).1
    have htaken := follows_advance_bind ht ((hq t).symm.trans hqt) (hsome t.lexeme hlt)
    have hadvance : advance ⟨ts, a⟩ = some (.ok (), ⟨ts, a + 1⟩) := advance_eq ht
    intro ha
    rw [bind_ok heat, ← bind_ok (k := fun _ => k (some t.lexeme)) hadvance]
    exact htaken ha

theorem follows_expect (kind : TokenKind) (lexeme : String) :
    Follows (expect kind lexeme) (Rule.erase (Grammar.expect kind lexeme)) ts a := by
  rw [expect, Rule.erase_expect]
  exact follows_eatIf?_bind (Rule.is_eq_form kind lexeme) (fun _ _ => follows_pure _)
    (follows_mismatch _)

theorem follows_expectIdentifier :
    Follows expectIdentifier (Rule.erase Grammar.expectIdentifier) ts a := by
  rw [expectIdentifier, Rule.erase_expectIdentifier]
  exact follows_eatIf?_bind (fun _ => rfl) (fun _ _ => follows_pure _) (follows_mismatch _)

/-- A reading with a token that closes it. -/
theorem Follows.closed (h : Follows m r ts a) (kind : TokenKind) (lexeme : String) (f : α → β) :
    Follows (do
      let v ← m
      expect kind lexeme
      return f v) (do
      let v ← r
      Rule.erase (Grammar.expect kind lexeme)
      pure (f v)) ts a :=
  h.bind fun v _ _ _ => (follows_expect kind lexeme).last fun _ => f v

/-- The loop `m` ends as the rule `r` does, and what it reads goes behind what has been read. -/
def FollowsLoop (m : List α → Reading (List α)) (r : Rule (List α)) (ts : List Token) (a : Nat) :
    Prop :=
  ∀ read, Follows (m read) (do
    let others ← r
    pure (read ++ others)) ts a

section Loops

variable {m : List α → Reading (List α)} {r : Rule (List α)}

theorem FollowsLoop.start (h : FollowsLoop m r ts a) : Follows (m []) r ts a := by
  simpa using h []

/-- The loop goes on with one value more. -/
theorem FollowsLoop.append (h : FollowsLoop m r ts a) (read : List α) (v : α) :
    Follows (m (read ++ [v])) (do
      let others ← r
      pure (read ++ v :: others)) ts a := by
  simpa only [List.append_assoc, List.singleton_append] using h (read ++ [v])

/-- The loop stops where the rule reads nothing more. -/
theorem follows_read (read : List α) :
    Follows (pure read) (do
      let others ← pure []
      pure (read ++ others)) ts a := by
  simpa using follows_pure read

end Loops

/-! ## Depth -/

/-- The depth allows for the given number of calls before the cursor moves from `a`, and for six at
each later place. -/
def Room (ts : List Token) (a calls depth : Nat) : Prop :=
  calls + 6 * (ts.length - a) ≤ depth

namespace Room

theorem mono {calls' : Nat} (room : Room ts a calls depth) (h : calls' ≤ calls) :
    Room ts a calls' depth := by
  rw [Room] at *
  omega

/-- A call leaves room for the calls that nest in it. -/
theorem exists_call (room : Room ts a (calls + 1) depth) :
    ∃ rest, depth = rest + 1 ∧ Room ts a calls rest := by
  rw [Room] at room
  cases depth with
  | zero => omega
  | succ rest =>
    refine ⟨rest, rfl, ?_⟩
    rw [Room]
    omega

/-- Once the cursor has moved, there is room for six calls again. -/
theorem moved (room : Room ts a calls depth) (hab : a < b) (hb : b ≤ ts.length) :
    Room ts b 6 depth := by
  rw [Room] at *
  omega

end Room

/-! ## Expressions -/

/-- The rules for expressions are followed from the cursor `a` on, at the given depth. -/
structure FollowsExpressions (ts : List Token) (a depth : Nat) : Prop where
  primary : Follows (primary depth) (Rule.erase Grammar.primary) ts a
  operand (tier : Tier) : Follows (operand depth tier) (Rule.erase (Grammar.operand tier)) ts a
  chain (tier : Tier) : Follows (chain depth tier) (Rule.erase (Grammar.chain tier)) ts a
  chainLoop (tier : Tier) (left : Node) :
    Follows (chainLoop depth tier left) (Rule.erase (Grammar.chainFrom tier left)) ts a
  arguments : Follows (arguments depth) (Rule.erase Grammar.arguments) ts a
  argumentLoop : FollowsLoop (argumentLoop depth) (Rule.erase Grammar.moreArguments) ts a

section Expressions

variable (ih : ∀ {calls depth} b, Room ts a calls depth → a < b → b ≤ ts.length →
  FollowsExpressions ts b depth)
include ih

theorem follows_primary (room : Room ts a 1 depth) :
    Follows (primary depth) (Rule.erase Grammar.primary) ts a := by
  obtain ⟨depth, rfl, within⟩ := room.exists_call
  rw [primary, Rule.erase_primary]
  apply follows_peek_bind
  cases ht : ts[a]? with
  | none =>
    exact follows_skip_end ht (follows_skip_end ht (follows_skip_end ht follows_unexpected))
  | some t =>
    have hlt := (List.getElem?_eq_some_iff.mp ht).1
    by_cases hl : t.kind = .literal
    · simp only [if_pos hl]
      exact follows_advance_bind ht (decide_eq_true hl) (follows_pure _)
    simp only [if_neg hl]
    apply follows_skip_token ht (decide_eq_false hl)
    by_cases hi : t.kind = .identifier
    · simp only [if_pos hi]
      apply follows_advance_bind ht (decide_eq_true hi)
      refine follows_eatIf?_bind (Rule.is_eq_form .paren "(") (fun _ hlt' => ?_) (follows_pure _)
      exact (ih (a + 1 + 1) within (by omega) hlt').arguments.last _
    simp only [if_neg hi]
    apply follows_skip_token ht (decide_eq_false hi)
    by_cases ho : t.is .paren "(" = true
    · simp only [if_pos ho]
      apply follows_advance_bind ht (decide_eq_true (Token.form_eq_iff.mpr ho))
      exact ((ih (a + 1) within (Nat.lt_succ_self a) hlt).chain .sum).closed .paren ")" id
    · simp only [if_neg ho]
      exact follows_skip_token ht (decide_eq_false (mt Token.form_eq_iff.mp ho)) follows_unexpected

theorem follows_chainLoop (room : Room ts a 1 depth) (tier : Tier) (left : Node) :
    Follows (chainLoop depth tier left) (Rule.erase (Grammar.chainFrom tier left)) ts a := by
  obtain ⟨depth, rfl, within⟩ := room.exists_call
  rw [chainLoop, Rule.erase_chainFrom]
  refine follows_eatIf?_bind (fun _ => rfl) (fun operator hlt => ?_) (follows_pure _)
  apply ((ih (a + 1) within (Nat.lt_succ_self a) hlt).operand tier).bind
  intro right b hab hb
  exact (ih b within hab hb).chainLoop tier _

theorem follows_chain {tier : Tier} (room : Room ts a calls depth)
    (h : Follows (operand depth tier) (Rule.erase (Grammar.operand tier)) ts a) :
    Follows (chain (depth + 1) tier) (Rule.erase (Grammar.chain tier)) ts a := by
  rw [chain, Rule.erase_chain]
  apply h.erase_bind
  intro left b hab hb
  exact (ih b room hab hb).chainLoop tier left

theorem follows_operand_product (room : Room ts a 2 depth) :
    Follows (operand depth .product) (Rule.erase (Grammar.operand .product)) ts a := by
  obtain ⟨depth, rfl, within⟩ := room.exists_call
  rw [operand, Rule.erase_operand_product]
  exact follows_primary ih within

theorem follows_chain_product (room : Room ts a 3 depth) :
    Follows (chain depth .product) (Rule.erase (Grammar.chain .product)) ts a := by
  obtain ⟨depth, rfl, within⟩ := room.exists_call
  exact follows_chain ih within (follows_operand_product ih within)

theorem follows_operand_sum (room : Room ts a 4 depth) :
    Follows (operand depth .sum) (Rule.erase (Grammar.operand .sum)) ts a := by
  obtain ⟨depth, rfl, within⟩ := room.exists_call
  rw [operand, Rule.erase_operand_sum]
  exact follows_chain_product ih within

theorem follows_chain_sum (room : Room ts a 5 depth) :
    Follows (chain depth .sum) (Rule.erase (Grammar.chain .sum)) ts a := by
  obtain ⟨depth, rfl, within⟩ := room.exists_call
  exact follows_chain ih within (follows_operand_sum ih within)

theorem followsLoop_argumentLoop (room : Room ts a 1 depth) :
    FollowsLoop (argumentLoop depth) (Rule.erase Grammar.moreArguments) ts a := by
  obtain ⟨depth, rfl, within⟩ := room.exists_call
  intro args
  rw [argumentLoop, Rule.erase_moreArguments, bind_assoc]
  refine follows_eatIf?_bind (fun _ => rfl) (fun _ hlt => ?_) (follows_read args)
  simp only [bind_assoc, pure_bind]
  apply ((ih (a + 1) within (Nat.lt_succ_self a) hlt).chain .sum).bind
  intro argument b hab hb
  exact (ih b within hab hb).argumentLoop.append args argument

theorem follows_arguments (room : Room ts a 6 depth) :
    Follows (arguments depth) (Rule.erase Grammar.arguments) ts a := by
  obtain ⟨depth, rfl, within⟩ := room.exists_call
  rw [arguments, Rule.erase_arguments]
  apply follows_peek_bind
  apply follows_stands_bind
  have hnone : Follows (do
      expect .paren ")"
      return []) (do
      Rule.erase (Grammar.expect .paren ")")
      pure ([] : List Node)) ts a := (follows_expect _ _).last _
  cases ht : ts[a]? with
  | none =>
    apply hnone.congr
    rw [List.drop_eq_nil_of_le (List.getElem?_eq_none_iff.mp ht)]
    rfl
  | some t =>
    by_cases hc : t.is .paren ")" = true
    · simp only [Option.any_some, hc, Bool.not_true, Bool.and_false, Bool.false_eq_true, if_false]
      apply hnone.congr
      have hform : decide (t.form = (.paren, ")")) = true :=
        decide_eq_true (Token.form_eq_iff.mpr hc)
      rw [Rule.erase_expect, bind_assoc, take?_bind_drop ht hform, take?_bind_drop ht hform]
      rfl
    · simp only [Option.any_some, hc, Option.isSome_some, Bool.not_false, Bool.and_true, if_true]
      apply follows_skip_token ht (decide_eq_false (mt Token.form_eq_iff.mp hc))
      apply follows_look
      rw [ht]
      apply (follows_chain_sum ih within).erase_bind
      intro first b hab hb
      have hloop := ((ih b within hab hb).argumentLoop.append [] first).closed .paren ")" id
      simpa only [bind_assoc, pure_bind, List.nil_append, id] using hloop

end Expressions

/-- With room for six calls, every rule for expressions is followed. -/
theorem followsExpressions {ts : List Token} {a depth : Nat} (room : Room ts a 6 depth) :
    FollowsExpressions ts a depth :=
  -- Wherever a reading calls another one again, the cursor has moved before.
  have ih : ∀ {calls depth} b, Room ts a calls depth → a < b → b ≤ ts.length →
      FollowsExpressions ts b depth := fun _ room hab hb => followsExpressions (room.moved hab hb)
  { primary := follows_primary ih (room.mono (by decide))
    operand := fun tier => match tier with
      | .sum => follows_operand_sum ih (room.mono (by decide))
      | .product => follows_operand_product ih (room.mono (by decide))
    chain := fun tier => match tier with
      | .sum => follows_chain_sum ih (room.mono (by decide))
      | .product => follows_chain_product ih (room.mono (by decide))
    chainLoop := follows_chainLoop ih (room.mono (by decide))
    arguments := follows_arguments ih room
    argumentLoop := followsLoop_argumentLoop ih (room.mono (by decide)) }
termination_by ts.length - a

theorem follows_expression (room : Room ts a 6 depth) :
    Follows (expression depth) (Rule.erase Grammar.expression) ts a :=
  (followsExpressions room).chain .sum

/-! ## Statements without a block -/

theorem follows_assignmentOrCall (room : Room ts a 0 depth) :
    Follows (assignmentOrCall depth) (Rule.erase Grammar.assignmentOrCall) ts a := by
  rw [assignmentOrCall, Rule.erase_assignmentOrCall]
  apply follows_expectIdentifier.erase_bind
  intro name b hab _
  refine follows_eatIf?_bind (Rule.is_eq_form .paren "(") (fun _ hlt => ?_) ?_
  · exact (followsExpressions (room.moved (by omega) hlt)).arguments.last _
  refine follows_eatIf?_bind (Rule.is_eq_form .operator "+=") (fun _ hlt => ?_) ?_
  · exact (follows_expression (room.moved (by omega) hlt)).last _
  apply (follows_expect _ _).bind
  intro _ c hbc hc
  exact (follows_expression (room.moved (by omega) hc)).last _

theorem follows_printStatement (room : Room ts a 0 depth) :
    Follows (printStatement depth) (Rule.erase Grammar.printStatement) ts a := by
  rw [printStatement, Rule.erase_printStatement]
  apply (follows_expect _ _).erase_bind
  intro _ b hab _
  apply (follows_expect _ _).bind
  intro _ c hbc hc
  exact (follows_expression (room.moved (by omega) hc)).closed .paren ")" fun argument =>
    Node.functionCall "print" [argument]

theorem followsLoop_parameterLoop {ts : List Token} {a depth : Nat} (room : Room ts a 1 depth) :
    FollowsLoop (parameterLoop depth) (Rule.erase Grammar.moreParameters) ts a := by
  obtain ⟨depth, rfl, within⟩ := room.exists_call
  intro params
  rw [parameterLoop, Rule.erase_moreParameters, bind_assoc]
  refine follows_eatIf?_bind (fun _ => rfl) (fun _ hlt => ?_) (follows_read params)
  simp only [bind_assoc, pure_bind]
  apply follows_expectIdentifier.bind
  intro name b hab hb
  have room' := (within.moved hab hb).mono (show 1 ≤ 6 by decide)
  exact (followsLoop_parameterLoop room').append params name
termination_by ts.length - a

theorem follows_parameters (room : Room ts a 0 depth) :
    Follows (parameters depth) (Rule.erase Grammar.parameters) ts a := by
  rw [parameters, Rule.erase_parameters]
  apply follows_peek_bind
  cases ht : ts[a]? with
  | none => exact follows_skip_end ht (follows_pure _)
  | some t =>
    by_cases hi : t.kind = .identifier
    · simp only [Option.any_some, decide_eq_true hi, if_true]
      have hread : Follows (do
          let first ← expectIdentifier
          parameterLoop depth [first]) (do
          let first ← Rule.erase Grammar.expectIdentifier
          let others ← Rule.erase Grammar.moreParameters
          pure (first :: others)) ts a := by
        apply follows_expectIdentifier.erase_bind
        intro first b hab hb
        have room' := (room.moved hab hb).mono (show 1 ≤ 6 by decide)
        exact (followsLoop_parameterLoop room').append [] first
      -- The reading has only looked at the identifier, which the rule has taken.
      apply hread.congr
      have hform : decide (t.form.1 = .identifier) = true := decide_eq_true hi
      rw [Rule.erase_expectIdentifier, bind_assoc, take?_bind_drop ht hform,
        take?_bind_drop ht hform]
      rfl
    · simp only [Option.any_some, decide_eq_false hi, Bool.false_eq_true, if_false]
      exact follows_skip_token ht (decide_eq_false hi) (follows_pure _)

/-! ## Statements with a block -/

/-- The rules for statements are followed from the cursor `a` on, at the given depth. -/
structure FollowsStatements (ts : List Token) (a depth : Nat) : Prop where
  ifStatement : Follows (ifStatement depth) (Rule.erase Grammar.ifStatement) ts a
  functionDecl : Follows (functionDecl depth) (Rule.erase Grammar.functionDecl) ts a
  block : Follows (block depth) (Rule.erase Grammar.block) ts a
  blockLoop : FollowsLoop (blockLoop depth) (Rule.erase Grammar.blockBody) ts a
  statement : Follows (statement depth) (Rule.erase Grammar.statement) ts a

section Statements

variable (ih : ∀ {calls depth} b, Room ts a calls depth → a < b → b ≤ ts.length →
  FollowsStatements ts b depth)
include ih

theorem follows_ifStatement (room : Room ts a 1 depth) :
    Follows (ifStatement depth) (Rule.erase Grammar.ifStatement) ts a := by
  obtain ⟨depth, rfl, within⟩ := room.exists_call
  rw [ifStatement, Rule.erase_ifStatement]
  apply (follows_expect _ _).erase_bind
  intro _ b hab hb
  apply (follows_expression (within.moved hab hb)).bind
  intro condition c hbc hc
  exact (ih c within (by omega) hc).block.last _

theorem follows_functionDecl (room : Room ts a 1 depth) :
    Follows (functionDecl depth) (Rule.erase Grammar.functionDecl) ts a := by
  obtain ⟨depth, rfl, within⟩ := room.exists_call
  rw [functionDecl, Rule.erase_functionDecl, Rule.erase_functionHeader]
  simp only [bind_assoc, pure_bind]
  apply (follows_expect _ _).erase_bind
  intro _ b hab _
  apply follows_expectIdentifier.bind
  intro name c hbc _
  apply (follows_expect _ _).bind
  intro _ d hcd hd
  apply (follows_parameters ((within.moved (by omega) hd).mono (Nat.zero_le _))).bind
  intro params e hde _
  apply (follows_expect _ _).bind
  intro _ f hef hf
  exact (ih f within (by omega) hf).block.last _

theorem follows_block (room : Room ts a 1 depth) :
    Follows (block depth) (Rule.erase Grammar.block) ts a := by
  obtain ⟨depth, rfl, within⟩ := room.exists_call
  rw [block, Rule.erase_block]
  apply (follows_expect _ _).erase_bind
  intro _ b hab hb
  exact (ih b within hab hb).blockLoop.start.closed .brace "\x7d" id

theorem follows_statement (room : Room ts a 2 depth) :
    Follows (statement depth) (Rule.erase Grammar.statement) ts a := by
  obtain ⟨depth, rfl, within⟩ := room.exists_call
  rw [statement, Rule.erase_statement]
  apply follows_peek_bind
  apply follows_look
  cases ht : ts[a]? with
  | none => exact follows_unexpected
  | some t =>
    simp only [Option.map_some, Token.form_eq_iff]
    by_cases hf : t.is .keyword "fn" = true
    · rw [if_pos hf, if_pos hf]
      exact follows_functionDecl ih within
    rw [if_neg hf, if_neg hf]
    by_cases hc : t.is .keyword "if" = true
    · rw [if_pos hc, if_pos hc]
      exact follows_ifStatement ih within
    rw [if_neg hc, if_neg hc]
    by_cases hp : t.is .keyword "print" = true
    · rw [if_pos hp, if_pos hp]
      exact follows_printStatement (within.mono (Nat.zero_le _))
    rw [if_neg hp, if_neg hp]
    by_cases hn : t.kind = .identifier
    · rw [if_pos hn, if_pos (show t.form.1 = .identifier from hn)]
      exact follows_assignmentOrCall (within.mono (Nat.zero_le _))
    · rw [if_neg hn, if_neg (show ¬ t.form.1 = .identifier from hn)]
      exact follows_unexpected

theorem followsLoop_blockLoop (room : Room ts a 3 depth) :
    FollowsLoop (blockLoop depth) (Rule.erase Grammar.blockBody) ts a := by
  obtain ⟨depth, rfl, within⟩ := room.exists_call
  intro body
  rw [blockLoop, Rule.erase_blockBody, bind_assoc]
  apply follows_peek_bind
  apply follows_stands_bind
  apply follows_look
  cases ht : ts[a]? with
  | none => exact follows_read body
  | some t =>
    simp only [Option.map_some, Token.form_eq_iff]
    by_cases hc : t.is .brace "\x7d" = true
    · simpa [hc] using follows_read body
    · simp only [Option.any_some, hc, Option.isSome_some, Bool.not_false, Bool.and_true, if_true,
        Bool.false_eq_true, if_false, bind_assoc, pure_bind]
      apply (follows_statement ih within).erase_bind
      intro next b hab hb
      exact (ih b within hab hb).blockLoop.append body next

end Statements

/-- With room for six calls, every rule for statements is followed. -/
theorem followsStatements {ts : List Token} {a depth : Nat} (room : Room ts a 6 depth) :
    FollowsStatements ts a depth :=
  have ih : ∀ {calls depth} b, Room ts a calls depth → a < b → b ≤ ts.length →
      FollowsStatements ts b depth := fun _ room hab hb => followsStatements (room.moved hab hb)
  { ifStatement := follows_ifStatement ih (room.mono (by decide))
    functionDecl := follows_functionDecl ih (room.mono (by decide))
    block := follows_block ih (room.mono (by decide))
    blockLoop := followsLoop_blockLoop ih (room.mono (by decide))
    statement := follows_statement ih (room.mono (by decide)) }
termination_by ts.length - a

/-! ## Programs -/

theorem followsLoop_programLoop {ts : List Token} {a depth : Nat} (room : Room ts a 6 depth) :
    FollowsLoop (programLoop depth) Rule.statements ts a := by
  obtain ⟨depth, rfl, within⟩ := room.exists_call
  intro trees
  rw [programLoop, Rule.statements_eq, bind_assoc]
  apply follows_peek_bind
  apply follows_look
  cases ht : ts[a]? with
  | none => exact follows_read trees
  | some t =>
    simp only [Option.map_some, Option.isSome_some, if_true, bind_assoc, pure_bind]
    have hstatement := follows_statement
      (fun _ room hab hb => followsStatements (room.moved hab hb)) (within.mono (by decide))
    apply hstatement.erase_bind
    intro next b hab hb
    exact (followsLoop_programLoop (within.moved hab hb)).append trees next
termination_by ts.length - a

/-- Reading a whole token list ends, with what the list spells or with the first error in it. -/
theorem parse_eq (room : Room ts 0 6 depth) : parse depth ts = some (Pocl.parse ts) := by
  obtain ⟨b, -, -, -, hloop⟩ := (followsLoop_programLoop room).start (Nat.zero_le _)
  rw [List.drop_zero] at hloop
  rw [parse, hloop, Pocl.parse, Rule.statements]
  cases Grammar.statements ts <;> rfl

end Pocl.Grammar.Reading
