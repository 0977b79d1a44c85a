import Pocl.Proofs.Grammar.Completeness
import Pocl.Proofs.Grammar.Soundness

/-!
# What an expectation rules out

An error says what was due. That tells apart the places where an operand or a statement is due
from those where one particular token is, and the end of the input from the rest. Three tokens are
enough to tell them apart: a number, the word `print` and a closing parenthesis. None of them goes
on with an expression or a list, so that a rule which ends before some other token ends before
them alike, and where a rule stops, they tell what could have stood there.

## Main definitions

* `Stops r ts`: the rule stops on the tokens
* `Bystander u`: one of the three tokens
* `Excludes e rest u`: the expectation `e`, where `rest` is left, rules out the token `u`
* `Passes r ts`: `r` ends before a bystander as it does at `ts`, or stops
* `Refuses r ts`: where `r` stops at `ts`, it stops at the tokens that its expectation rules out
* `Firm r ts`: `r` is settled at `ts`, passes and refuses

## Main results

* `Firm.bind`: sequencing keeps firmness
* `firm_take?`, `firm_expect`, `firm_expectIdentifier`: the steps are firm
* `Firm.taken`, `Firm.opened`: a rule is firm if what it does after its first token is
-/

namespace Pocl.Grammar

namespace Rule

variable {α β : Type} {r : Rule α} {k : α → Rule β} {ts us rest : List Token} {t u : Token}

/-! ## Stopping -/

/-- The rule stops on the tokens. -/
def Stops (r : Rule α) (ts : List Token) : Prop :=
  ∃ e rest, r ts = .error e rest

theorem stops_stop (e : Option Expected) (ts : List Token) : Stops (stop e : Rule α) ts :=
  ⟨e, ts, rfl⟩

theorem Stops.bind (h : Stops r ts) : Stops (r >>= k) ts := by
  obtain ⟨e, rest, h⟩ := h
  exact ⟨e, rest, bind_of_error h⟩

theorem Stops.bind_of_ok {v : α} (h : Stops (k v) rest) (hr : r ts = .ok v rest) :
    Stops (r >>= k) ts := by
  rwa [Stops, Rule.bind_of_ok hr]

/-! ## Three tokens -/

/-- A number, `print` or a closing parenthesis: none goes on with an expression or a list. -/
def Bystander (u : Token) : Prop :=
  u = one ∨ u = printWord ∨ u = close

/-- The tokens that an error rules out. An operand that is due at the end of the input is neither
`print` nor a closing parenthesis. A token that is due is no number, and it is not `print` unless
it closes a block at the end of the input. The arguments of a call may close or begin there. -/
def Excludes (e : Option Expected) (rest : List Token) (u : Token) : Prop :=
  match e, rest with
  | none, [] => u = close ∨ u = printWord
  | none, _ :: _ => False
  | some x, [] => u = one ∧ x ≠ ⟨.paren, some ")"⟩
  | some _, _ :: _ => u = one ∨ u = printWord

theorem Excludes.bystander {e : Option Expected} (h : Excludes e rest u) : Bystander u := by
  match e, rest, h with
  | none, [], .inl h => exact .inr (.inr h)
  | none, [], .inr h => exact .inr (.inl h)
  | some _, [], ⟨h, _⟩ => exact .inl h
  | some _, _ :: _, .inl h => exact .inl h
  | some _, _ :: _, .inr h => exact .inr (.inl h)

/-- A token found where an operand or a statement is due rules nothing out. -/
theorem not_excludes_none_cons : ¬ Excludes none (t :: us) u :=
  False.elim

/-- Before the end of the input a closing parenthesis is never ruled out. -/
theorem Excludes.of_cons {e : Option Expected} (h : Excludes e (t :: us) u) :
    u = one ∨ u = printWord := by
  cases e with
  | none => exact absurd h not_excludes_none_cons
  | some x => exact h

/-- Where a token is due, a closing parenthesis is not ruled out. -/
theorem Excludes.of_some {x : Expected} (h : Excludes (some x) rest u) :
    u = one ∨ u = printWord := by
  cases rest with
  | nil => exact .inl h.1
  | cons t us => exact h

/-- Where `r` ends with a value, it ends in the same way before a bystander, or stops. -/
def Passes (r : Rule α) (ts : List Token) : Prop :=
  ∀ used v rest, used ++ rest = ts → r ts = .ok v rest → ∀ u, Bystander u → ∀ us,
    r (used ++ u :: us) = .ok v (u :: us) ∨ Stops r (used ++ u :: us)

/-- Where `r` stops, it stops as well with a token that its expectation rules out. -/
def Refuses (r : Rule α) (ts : List Token) : Prop :=
  ∀ used e rest, used ++ rest = ts → r ts = .error e rest → ∀ u, Excludes e rest u → ∀ us,
    Stops r (used ++ u :: us)

/-- The ending of `r` at `ts` depends on one token of lookahead, and it tells what that token can
be. -/
structure Firm (r : Rule α) (ts : List Token) : Prop where
  settled : Settled α r ts
  passes : Passes r ts
  refuses : Refuses r ts

/-! ## Sequencing -/

/-- Whatever a second rule takes, the first one has ended before it, or stops. -/
theorem Firm.first (h : Firm r ts) {v : α} {used used' vs : List Token}
    (hr : r ts = .ok v (used' ++ rest)) (hts : used ++ (used' ++ rest) = ts) (hu : Bystander u) :
    r (used ++ (used' ++ u :: vs)) = .ok v (used' ++ u :: vs) ∨
      Stops r (used ++ (used' ++ u :: vs)) := by
  cases used' with
  | nil => exact h.passes used v rest hts hr u hu vs
  | cons t used' =>
    exact .inl (h.settled.ok_append hr hts (.refl _) rfl)

theorem Firm.passes_bind (h : Firm r ts) (hk : ∀ v rest, r ts = .ok v rest → Firm (k v) rest) :
    Passes (r >>= k) ts := by
  intro used w rest hts hok u hu us
  obtain ⟨v, rest', hr, hok⟩ := bind_eq_ok_iff.mp hok
  obtain ⟨used₁, hts₁, -⟩ := h.settled.of_ok hr
  obtain ⟨used₂, rfl, -⟩ := (hk v rest' hr).settled.of_ok hok
  obtain rfl : used = used₁ ++ used₂ :=
    List.append_cancel_right (hts.trans (hts₁.symm.trans (List.append_assoc _ _ _).symm))
  rw [List.append_assoc]
  rcases h.first hr hts₁ hu with hfirst | hstops
  · rw [Stops, bind_of_ok hfirst]
    exact (hk v _ hr).passes used₂ w rest rfl hok u hu us
  · exact .inr hstops.bind

theorem Firm.refuses_bind (h : Firm r ts)
    (hk : ∀ v rest, r ts = .ok v rest → Settled β (k v) rest ∧ Refuses (k v) rest) :
    Refuses (r >>= k) ts := by
  intro used e rest hts herror u hu us
  rcases bind_eq_error_iff.mp herror with hr | ⟨v, rest', hr, herror⟩
  · exact (h.refuses used e rest hts hr u hu us).bind
  · obtain ⟨used₁, hts₁, -⟩ := h.settled.of_ok hr
    obtain ⟨used₂, rfl, -⟩ := (hk v rest' hr).1.of_error herror
    obtain rfl : used = used₁ ++ used₂ :=
      List.append_cancel_right (hts.trans (hts₁.symm.trans (List.append_assoc _ _ _).symm))
    rw [List.append_assoc]
    rcases h.first hr hts₁ hu.bystander with hfirst | hstops
    · exact ((hk v _ hr).2 used₂ e rest rfl herror u hu us).bind_of_ok hfirst
    · exact hstops.bind

theorem Firm.bind (h : Firm r ts) (hk : ∀ v rest, r ts = .ok v rest → Firm (k v) rest) :
    Firm (r >>= k) ts where
  settled := h.settled.bind fun v rest hr => (hk v rest hr).settled
  passes := h.passes_bind hk
  refuses := h.refuses_bind fun v rest hr => ⟨(hk v rest hr).settled, (hk v rest hr).refuses⟩

/-- What follows a rule with a bound has fewer tokens. -/
theorem Firm.erase_bind {r : (ts : List Token) → Answer α ts.length} (h : Firm (erase r) ts)
    (hk : ∀ v rest, rest.length < ts.length → Firm (k v) rest) : Firm (erase r >>= k) ts :=
  h.bind fun v rest hr => hk v rest (length_rest_lt_of_erase hr)

/-! ## Steps -/

theorem firm_pure (v : α) (ts : List Token) : Firm (pure v) ts where
  settled := stepwise_settled.pure v ts
  passes used w rest hts hok u _ us := by
    cases hok
    obtain rfl : used = [] := List.append_left_eq_self.mp hts
    exact .inl rfl
  refuses used e rest _ herror := by cases herror

theorem firm_stop (e : Option Expected) (ts : List Token) : Firm (stop e : Rule α) ts where
  settled := stepwise_settled.stop e ts
  passes used w rest _ hok := by cases hok
  refuses used e rest _ _ u _ us := stops_stop _ _

/-- A rule that stops at once. -/
theorem Firm.of_error {e : Option Expected} (h : r ts = .error e ts) (hs : Settled α r ts)
    (hu : ∀ u, Excludes e ts u → ∀ us, Stops r (u :: us)) : Firm r ts := by
  refine ⟨hs, fun used v rest _ hok => ?_, fun used e' rest hts herror u hexcludes us => ?_⟩
  · rw [h] at hok
    cases hok
  · rw [h] at herror
    cases herror
    obtain rfl : used = [] := List.append_left_eq_self.mp hts
    exact hu u hexcludes us

/-- A rule that has taken a first token. -/
theorem Firm.taken {R : Rule β} {v : α} (hR : ∀ vs, R (t :: vs) = (r >>= k) (t :: vs))
    (hr : ∀ vs, r (t :: vs) = .ok v vs) (hs : Settled β R (t :: us)) (h : Firm (k v) us) :
    Firm R (t :: us) := by
  have eq : ∀ vs, R (t :: vs) = k v vs := fun vs => (hR vs).trans (bind_of_ok (hr vs))
  -- The first token is among those taken, as fewer are left at the end of `k v`.
  have split : ∀ used rest, used ++ rest = t :: us → (∃ used', used' ++ rest = us) →
      ∃ used', used = t :: used' ∧ used' ++ rest = us := by
    rintro used rest hts ⟨used', hus⟩
    have happend : used ++ rest = (t :: used') ++ rest := by rw [hts, ← hus, List.cons_append]
    exact ⟨used', List.append_cancel_right happend, hus⟩
  refine ⟨hs, fun used w rest hts hok u hu vs => ?_, fun used e rest hts herror u hu vs => ?_⟩
  · rw [eq] at hok
    obtain ⟨used', hus, -⟩ := h.settled.of_ok hok
    obtain ⟨used', rfl, hus⟩ := split used rest hts ⟨used', hus⟩
    rw [Stops, List.cons_append, eq]
    exact h.passes used' w rest hus hok u hu vs
  · rw [eq] at herror
    obtain ⟨used', hus, -⟩ := h.settled.of_error herror
    obtain ⟨used', rfl, hus⟩ := split used rest hts ⟨used', hus⟩
    rw [Stops, List.cons_append, eq]
    exact h.refuses used' e rest hus herror u hu vs

/-- A rule `R` that goes on as `r` does, unless its first token closes what `R` reads. -/
theorem Firm.opened {R r : Rule α} (hR : ∀ vs, R (t :: vs) = r (t :: vs))
    (hu : ∀ u, u = one ∨ u = printWord → ∀ vs, R (u :: vs) = r (u :: vs))
    (hlt : ∀ v rest, R (t :: us) = .ok v rest → rest.length < (t :: us).length)
    (hs : Settled α R (t :: us)) (h : Firm r (t :: us)) : Firm R (t :: us) := by
  refine ⟨hs, fun used v rest hts hok u hu vs => ?_,
    fun used e rest hts herror u hexcludes vs => ?_⟩
  · have hlt := hlt v rest hok
    rw [hR] at hok
    have hpass := h.passes used v rest hts hok u hu vs
    cases used with
    | nil =>
      rw [← hts] at hlt
      exact absurd hlt (Nat.lt_irrefl _)
    | cons t' used =>
      obtain ⟨rfl, -⟩ := List.cons.inj hts
      rwa [Stops, List.cons_append, hR]
  · rw [hR] at herror
    have hstops := h.refuses used e rest hts herror u hexcludes vs
    cases used with
    | nil =>
      rw [List.nil_append] at hts
      subst hts
      rwa [Stops, List.nil_append, hu u hexcludes.of_cons]
    | cons t' used =>
      obtain ⟨rfl, -⟩ := List.cons.inj hts
      rwa [Stops, List.cons_append, hR]

/-- A token that is looked for and is none of the bystanders. -/
theorem firm_take? {p : TokenKind × String → Bool} (hp : ∀ u, Bystander u → p u.form = false)
    (ts : List Token) : Firm (take? p) ts where
  settled := settled_take? p ts
  passes := by
    intro used v rest hts hok u hu us
    have left : used = [] → take? p (used ++ u :: us) = .ok none (u :: us) := by
      rintro rfl
      exact take?_neg (hp u hu)
    cases ts with
    | nil =>
      cases hok
      exact .inl (left (List.append_left_eq_self.mp hts))
    | cons t ts =>
      by_cases h : p t.form = true
      · rw [take?_pos h] at hok
        cases hok
        obtain rfl : used = [t] :=
          List.append_cancel_right (show used ++ rest = [t] ++ rest from hts)
        exact .inl (take?_pos h)
      · rw [take?_neg (Bool.not_eq_true _ ▸ h)] at hok
        cases hok
        exact .inl (left (List.append_left_eq_self.mp hts))
  refuses := by
    intro used e rest _ herror
    cases ts with
    | nil => cases herror
    | cons t ts =>
      rw [take?] at herror
      split at herror <;> cases herror

theorem firm_take?_bind {p : TokenKind × String → Bool} {k : Option String → Rule β}
    (hp : ∀ u, Bystander u → p u.form = false)
    (hsome : ∀ lexeme us, us.length < ts.length → Firm (k (some lexeme)) us)
    (hnone : Firm (k none) ts) : Firm (take? p >>= k) ts := by
  apply (firm_take? hp ts).bind
  intro found rest h
  cases ts with
  | nil =>
    cases h
    exact hnone
  | cons t us =>
    rw [take?] at h
    split at h
    · cases h
      exact hsome _ _ (Nat.lt_succ_self _)
    · cases h
      exact hnone

/-! ## Single tokens -/

theorem expect_of_next {kind : TokenKind} {lexeme : String} (h : next ts ≠ some (kind, lexeme)) :
    erase (expect kind lexeme) ts = .error (some ⟨kind, some lexeme⟩) ts := by
  have hleft : take? (· = (kind, lexeme)) ts = .ok none ts :=
    take?_of_next fun form hform => decide_eq_false fun heq => h (heq ▸ hform)
  rw [erase_expect, bind_of_ok hleft]
  rfl

theorem firm_expect {kind : TokenKind} {lexeme : String} (hone : one.form ≠ (kind, lexeme))
    (hprint : printWord.form ≠ (kind, lexeme)) (ts : List Token) :
    Firm (erase (expect kind lexeme)) ts := by
  have hs := stepwise_settled.expect kind lexeme ts
  by_cases h : next ts = some (kind, lexeme)
  · cases ts with
    | nil => cases h
    | cons t us =>
      have ht : t.form = (kind, lexeme) := Option.some.inj h
      exact .taken (fun vs => by rw [bind_pure]) (fun vs => expect_cons ht) hs (firm_pure () us)
  · apply Firm.of_error (expect_of_next h) hs
    intro u hu us
    rcases hu.of_some with rfl | rfl
    · exact ⟨_, _, expect_of_next fun heq => hone (Option.some.inj heq)⟩
    · exact ⟨_, _, expect_of_next fun heq => hprint (Option.some.inj heq)⟩

theorem firm_expectIdentifier (ts : List Token) : Firm (erase expectIdentifier) ts := by
  rw [erase_expectIdentifier]
  apply firm_take?_bind
  · rintro u (rfl | rfl | rfl) <;> rfl
  · intro name us _
    exact firm_pure _ _
  · exact firm_stop _ _

end Rule

end Pocl.Grammar
