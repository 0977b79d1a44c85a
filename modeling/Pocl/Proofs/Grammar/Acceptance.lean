import Mathlib.Data.List.Basic
import Pocl.Proofs.Grammar.Completeness
import Pocl.Proofs.Grammar.Soundness

/-!
# What is accepted, and where an error stands

The parser accepts the token lists that the grammar derives, and builds the program that they
spell. A list that is not accepted is refused at its first impossible token: what precedes the
token can still be completed to an accepted list, and with the token no completion exists. Where
every token is possible and the list is not accepted, the error stands at the end of the input.

## Main definitions

* `Accepted ts`: the parser accepts the token list
* `Viable ts`: some continuation of the token list is accepted

## Main results

* `parse_eq_ok_iff_derives`: the parser accepts exactly the grammar, which is unambiguous
* `parse_error_at_first_impossible`: an error stands at the first impossible token
-/

namespace Pocl

open Grammar Rule

variable {ts us vs : List Token}

/-! ## The grammar -/

/-- A token list spells one program at most. -/
theorem Grammar.Derives.unique {p q : Program} (hp : Derives ts p) (hq : Derives ts q) : p = q :=
  Except.ok.inj ((parse_of_derives hp).symm.trans (parse_of_derives hq))

/-- **The parser accepts exactly its grammar**, builds the tree that the grammar gives, and the
grammar gives one tree at most. -/
theorem parse_eq_ok_iff_derives (ts : List Token) :
    (∀ p, parse ts = .ok p ↔ Derives ts p) ∧ ∀ p q, Derives ts p → Derives ts q → p = q :=
  ⟨fun _ => ⟨derives_of_parse, parse_of_derives⟩, fun _ _ => Derives.unique⟩

/-- `x = y(1)` spells one assignment and no other program. -/
theorem derives_assignment_of_call :
    let ts : List Token := [⟨.identifier, "x", 1⟩, ⟨.operator, "=", 3⟩, ⟨.identifier, "y", 5⟩,
      ⟨.paren, "(", 6⟩, ⟨.literal, "1", 7⟩, ⟨.paren, ")", 8⟩]
    let p : Program := ⟨[.assignment "x" (.functionCall "y" [.number "1"])]⟩
    Derives ts p ∧ ∀ q, Derives ts q → p = q := by
  intro ts p
  have h : parse ts = .ok p := by cbv
  have hp := ((parse_eq_ok_iff_derives ts).1 p).mp h
  exact ⟨hp, fun q hq => (parse_eq_ok_iff_derives ts).2 p q hp hq⟩

/-! ## Viable lists -/

/-- The parser accepts the token list. -/
def Accepted (ts : List Token) : Prop :=
  ∃ p, parse ts = .ok p

/-- Some continuation of the token list is accepted. -/
def Viable (ts : List Token) : Prop :=
  ∃ us, Accepted (ts ++ us)

theorem Viable.of_prefix (h : Viable us) (hp : ts <+: us) : Viable ts := by
  obtain ⟨vs, rfl⟩ := hp
  obtain ⟨ws, h⟩ := h
  exact ⟨vs ++ ws, List.append_assoc _ _ _ ▸ h⟩

theorem accepted_of_spelled {trees : List Node} (h : (Clause.statements trees).Spelled ts) :
    Accepted ts :=
  ⟨⟨trees⟩, parse_of_derives h⟩

theorem exists_admitted (x : Expected) : ∃ t : Token, x.Admits t :=
  ⟨⟨x.kind, x.lexeme.getD "", 0⟩, rfl, fun lexeme h => by rw [h]; rfl⟩

/-- What is due goes on with a viable list. -/
theorem viable_of_prompts {e : Option Expected}
    (h : Prompts (fun us => ∃ trees, (Clause.statements trees).Spelled us) e ts) : Viable ts := by
  cases e with
  | some x =>
    obtain ⟨t, ht⟩ := exists_admitted x
    obtain ⟨vs, trees, h⟩ := h t ht
    exact ⟨t :: vs, accepted_of_spelled h⟩
  | none =>
    rcases h with ⟨vs, trees, h⟩ | ⟨vs, trees, h⟩ <;> exact ⟨_ :: vs, accepted_of_spelled h⟩

theorem parse_of_statements_error {e : Option Expected} (h : Rule.statements ts = .error e us) :
    parse ts = .error (Failure.error ⟨e, us⟩) := by
  rw [Rule.statements] at h
  rw [parse]
  cases hs : Grammar.statements ts with
  | error f => rw [hs] at h; cases h; rfl
  | ok trees => rw [hs] at h; cases h

theorem exists_of_parse_error {e : ParseError} (h : parse ts = .error e) :
    ∃ x rest, Rule.statements ts = .error x rest ∧ e.found = rest.head? := by
  rw [parse] at h
  cases hs : Grammar.statements ts with
  | error f =>
    rw [hs] at h
    cases h
    exact ⟨f.expected, f.rest, by rw [Rule.statements, hs], f.found_error⟩
  | ok trees => rw [hs] at h; cases h

theorem parse_eq_ok_iff_statements {p : Program} :
    parse ts = .ok p ↔ Rule.statements ts = .ok p.statements [] :=
  ⟨fun h => (derives_of_parse h).read.2, parse_of_statements⟩

theorem parse_eq_error_iff_statements {e : ParseError} :
    parse ts = .error e ↔
      ∃ x rest, Rule.statements ts = .error x rest ∧ e = Failure.error ⟨x, rest⟩ := by
  refine ⟨fun h => ?_, ?_⟩
  · obtain ⟨x, rest, hr, -⟩ := exists_of_parse_error h
    exact ⟨x, rest, hr, Except.error.inj (h.symm.trans (parse_of_statements_error hr))⟩
  · rintro ⟨x, rest, hr, rfl⟩
    exact parse_of_statements_error hr

theorem not_accepted_of_parse_error {e : ParseError} (h : parse ts = .error e) : ¬ Accepted ts := by
  rintro ⟨p, hp⟩
  rw [h] at hp
  cases hp

/-- An error leaves the offending token and what follows it, and no other list that begins with
the tokens up to it is accepted. -/
theorem exists_split_of_parse_error {e : ParseError} (h : parse ts = .error e) :
    ∃ used rest, used ++ rest = ts ∧ e.found = rest.head? ∧ Viable used ∧
      ∀ t, e.found = some t → ¬ Viable (used ++ [t]) := by
  obtain ⟨x, rest, hr, hfound⟩ := exists_of_parse_error h
  have ht := takes_program ts
  rw [Takes, Covers, hr] at ht
  obtain ⟨used, hts, hprompts⟩ := ht
  refine ⟨used, rest, hts, hfound, viable_of_prompts hprompts, ?_⟩
  rintro t hfound' ⟨us, haccepted⟩
  have hnext : next (t :: us) = next rest := by
    rw [next, next, ← hfound, hfound']
    rfl
  have herror := (stepwise_settled.statements ts).error_append hr hts (.refl _) hnext
  refine not_accepted_of_parse_error (parse_of_statements_error herror) ?_
  rwa [List.append_assoc] at haccepted

/-- A list becomes impossible at one index at most. -/
theorem index_eq_of_viable {i j : Nat} (hi : Viable (ts.take i)) (hi' : ¬ Viable (ts.take (i + 1)))
    (hj : Viable (ts.take j)) (hj' : ¬ Viable (ts.take (j + 1))) : i = j := by
  -- A longer viable prefix would make the shorter impossible one viable.
  rcases Nat.lt_trichotomy i j with h | h | h
  · exact absurd (hj.of_prefix (List.take_prefix_take_left h)) hi'
  · exact h
  · exact absurd (hi.of_prefix (List.take_prefix_take_left h)) hj'

theorem existsUnique_index_of_parse_error {e : ParseError} {t : Token} (h : parse ts = .error e)
    (ht : e.found = some t) :
    ∃! i, ts[i]? = some t ∧ Viable (ts.take i) ∧ ¬ Viable (ts.take (i + 1)) := by
  obtain ⟨used, rest, rfl, hfound, hviable, hnot⟩ := exists_split_of_parse_error h
  cases rest with
  | nil => cases ht.symm.trans hfound
  | cons u vs =>
    obtain rfl : t = u := Option.some.inj (ht.symm.trans hfound)
    have hi : Viable ((used ++ t :: vs).take used.length) := by rwa [List.take_left]
    have hi' : ¬ Viable ((used ++ t :: vs).take (used.length + 1)) := by
      rw [List.take_length_add_append]
      exact hnot t ht
    refine ⟨used.length, ⟨by simp, hi, hi'⟩, ?_⟩
    rintro j ⟨-, hj, hj'⟩
    exact index_eq_of_viable hj hj' hi hi'

theorem viable_of_found_none {e : ParseError} (h : parse ts = .error e) (hf : e.found = none) :
    Viable ts := by
  obtain ⟨used, rest, rfl, hfound, hviable, -⟩ := exists_split_of_parse_error h
  obtain rfl := List.head?_eq_none_iff.mp (hfound.symm.trans hf)
  rwa [List.append_nil]

theorem accepted_or_exists_error (ts : List Token) : Accepted ts ∨ ∃ e, parse ts = .error e := by
  cases h : parse ts with
  | ok p => exact .inl ⟨p, h⟩
  | error e => exact .inr ⟨e, rfl⟩

/-- **Errors stand at the first impossible token.** A reported token is the one token of the list
before which the list is viable and after which it is not; the end of the input is reported for
viable lists that are not accepted, which are the proper beginnings of accepted lists. -/
theorem parse_error_at_first_impossible (ts : List Token) :
    (∀ e t, parse ts = .error e → e.found = some t →
      ∃! i, ts[i]? = some t ∧ Viable (ts.take i) ∧ ¬ Viable (ts.take (i + 1))) ∧
    (∀ e, parse ts = .error e → e.found = none → Viable ts ∧ ¬ Accepted ts) ∧
    ((∃ e, parse ts = .error e ∧ e.found = none) ↔
      ¬ Accepted ts ∧ ∃ us, us ≠ [] ∧ Accepted (ts ++ us)) := by
  refine ⟨fun e t h ht => existsUnique_index_of_parse_error h ht,
    fun e h hf => ⟨viable_of_found_none h hf, not_accepted_of_parse_error h⟩, ?_, ?_⟩
  · rintro ⟨e, h, hf⟩
    have hnot := not_accepted_of_parse_error h
    obtain ⟨us, hus⟩ := viable_of_found_none h hf
    refine ⟨hnot, us, fun hnil => hnot ?_, hus⟩
    rwa [hnil, List.append_nil] at hus
  · rintro ⟨hnot, us, -, hus⟩
    obtain ⟨e, h⟩ := (accepted_or_exists_error ts).resolve_left hnot
    refine ⟨e, h, ?_⟩
    cases hf : e.found with
    | none => rfl
    | some t =>
      obtain ⟨i, ⟨-, -, hi⟩, -⟩ := existsUnique_index_of_parse_error h hf
      exact absurd (Viable.of_prefix ⟨us, hus⟩ (List.take_prefix _ _)) hi

/-- `x = )` is refused at the parenthesis, and `x =` at its end. -/
theorem parse_error_of_missing_value :
    let x : Token := ⟨.identifier, "x", 1⟩
    let o : Token := ⟨.operator, "=", 3⟩
    let r : Token := ⟨.paren, ")", 5⟩
    (parse [x, o, r] = .error (.unexpected (some r)) ∧
      ∃! i, [x, o, r][i]? = some r ∧
        Viable ([x, o, r].take i) ∧ ¬ Viable ([x, o, r].take (i + 1))) ∧
    parse [x, o] = .error (.unexpected none) ∧ Viable [x, o] ∧ ¬ Accepted [x, o] := by
  intro x o r
  have h : parse [x, o, r] = .error (.unexpected (some r)) := by cbv
  have h' : parse [x, o] = .error (.unexpected none) := by cbv
  exact ⟨⟨h, (parse_error_at_first_impossible [x, o, r]).1 _ r h rfl⟩, h',
    (parse_error_at_first_impossible [x, o]).2.1 _ h' rfl⟩

end Pocl
