import Pocl.Proofs.Grammar.Stepwise

/-!
# One token of lookahead

How a rule ends is settled by the forms of the tokens it takes and of the one after them. What
follows, and where the tokens stand, never matters: the rule ends the same way on any other list
that begins alike.

## Main definitions

* `left`, `leave`: the tokens left at the end of a rule, and the same ending with others left
* `Alike ts us`: the same forms in the same order
* `Settled r ts`: the ending of `r` at `ts` depends on the tokens taken and the next one

## Main results

* `stepwise_settled`: every rule is settled at every token list
-/

namespace Pocl.Grammar.Rule

variable {α β : Type} {r : Rule α} {ts us vs rest : List Token}

/-- The tokens left, whichever way a rule ends. -/
def left : EStateM.Result (Option Expected) (List Token) α → List Token
  | .ok _ rest => rest
  | .error _ rest => rest

/-- The same ending with other tokens left. -/
def leave (x : EStateM.Result (Option Expected) (List Token) α) (rest : List Token) :
    EStateM.Result (Option Expected) (List Token) α :=
  match x with
  | .ok v _ => .ok v rest
  | .error e _ => .error e rest

/-- The same forms in the same order. -/
def Alike (ts us : List Token) : Prop :=
  ts.map Token.form = us.map Token.form

theorem Alike.refl (ts : List Token) : Alike ts ts := rfl

theorem Alike.nil_iff : Alike us [] ↔ us = [] := by
  simp [Alike]

theorem Alike.cons_iff {t : Token} :
    Alike us (t :: ts) ↔ ∃ u vs, us = u :: vs ∧ u.form = t.form ∧ Alike vs ts := by
  simp only [Alike, List.map_cons, List.map_eq_cons_iff]

theorem Alike.singleton_iff {t : Token} : Alike us [t] ↔ ∃ u, us = [u] ∧ u.form = t.form := by
  simp only [Alike, List.map_cons, List.map_nil, List.map_eq_singleton_iff]

theorem Alike.append_iff :
    Alike us (ts ++ vs) ↔ ∃ us₁ us₂, us = us₁ ++ us₂ ∧ Alike us₁ ts ∧ Alike us₂ vs := by
  simp only [Alike, List.map_append, List.map_eq_append_iff]

theorem next_append_of_alike {rest' : List Token} (h : Alike us ts)
    (hn : next rest' = next rest) : next (us ++ rest') = next (ts ++ rest) := by
  cases ts with
  | nil =>
    obtain rfl := Alike.nil_iff.mp h
    exact hn
  | cons t ts =>
    obtain ⟨u, vs, rfl, hu, -⟩ := Alike.cons_iff.mp h
    simp only [List.cons_append, next_cons, hu]

/-- The ending of `r` at `ts` depends on the forms of the tokens taken and of the next one. -/
def Settled (α : Type) (r : Rule α) (ts : List Token) : Prop :=
  ∃ used, used ++ left (r ts) = ts ∧
    ∀ used' rest', Alike used' used → next rest' = next (left (r ts)) →
      r (used' ++ rest') = leave (r ts) rest'

theorem Settled.of_ok {v : α} (h : Settled α r ts) (hr : r ts = .ok v rest) :
    ∃ used, used ++ rest = ts ∧
      ∀ used' rest', Alike used' used → next rest' = next rest →
        r (used' ++ rest') = .ok v rest' := by
  rwa [Settled, hr] at h

theorem Settled.of_error {e : Option Expected} (h : Settled α r ts) (hr : r ts = .error e rest) :
    ∃ used, used ++ rest = ts ∧
      ∀ used' rest', Alike used' used → next rest' = next rest →
        r (used' ++ rest') = .error e rest' := by
  rwa [Settled, hr] at h

/-- Once a rule has ended, the tokens it took settle how it ends before other ones. -/
theorem Settled.ok_append {used used' rest' : List Token} {v : α} (h : Settled α r ts)
    (hr : r ts = .ok v rest) (hts : used ++ rest = ts) (hu : Alike used' used)
    (hn : next rest' = next rest) : r (used' ++ rest') = .ok v rest' := by
  obtain ⟨used₁, hts₁, hsettled⟩ := h.of_ok hr
  obtain rfl : used₁ = used := List.append_cancel_right (hts₁.trans hts.symm)
  exact hsettled used' rest' hu hn

theorem Settled.error_append {used used' rest' : List Token} {e : Option Expected}
    (h : Settled α r ts) (hr : r ts = .error e rest) (hts : used ++ rest = ts)
    (hu : Alike used' used) (hn : next rest' = next rest) :
    r (used' ++ rest') = .error e rest' := by
  obtain ⟨used₁, hts₁, hsettled⟩ := h.of_error hr
  obtain rfl : used₁ = used := List.append_cancel_right (hts₁.trans hts.symm)
  exact hsettled used' rest' hu hn

/-- What a rule leaves can be gone on with, as long as the next token stays the same. -/
theorem Settled.ok_append_right {v : α} (h : Settled α r ts) (hr : r ts = .ok v rest)
    (hn : next (rest ++ vs) = next rest) : r (ts ++ vs) = .ok v (rest ++ vs) := by
  obtain ⟨used, rfl, hsettled⟩ := h.of_ok hr
  rw [List.append_assoc]
  exact hsettled used _ (.refl _) hn

theorem Settled.error_append_right {e : Option Expected} (h : Settled α r ts)
    (hr : r ts = .error e rest) (hn : next (rest ++ vs) = next rest) :
    r (ts ++ vs) = .error e (rest ++ vs) := by
  obtain ⟨used, rfl, hsettled⟩ := h.of_error hr
  rw [List.append_assoc]
  exact hsettled used _ (.refl _) hn

/-- A rule that takes nothing is settled if its ending depends on the next form only. -/
theorem settled_of_next (h : ∀ us, next us = next ts → r us = leave (r ts) us)
    (hts : left (r ts) = ts) : Settled α r ts := by
  refine ⟨[], by rw [hts]; rfl, fun used' rest' hu hn => ?_⟩
  obtain rfl := Alike.nil_iff.mp hu
  exact h rest' (hts ▸ hn)

theorem settled_take? (p : TokenKind × String → Bool) (ts : List Token) :
    Settled _ (take? p) ts := by
  cases ts with
  | nil =>
    refine settled_of_next (fun us hu => ?_) rfl
    cases us with
    | nil => rfl
    | cons u us => cases hu
  | cons t ts =>
    by_cases h : p t.form = true
    · -- The token is taken whatever follows it.
      rw [Settled, take?_pos h]
      refine ⟨[t], rfl, fun used' rest' hu _ => ?_⟩
      obtain ⟨u, vs, rfl, hform, hvs⟩ := Alike.cons_iff.mp hu
      obtain rfl := Alike.nil_iff.mp hvs
      have hl : u.lexeme = t.lexeme := congrArg Prod.snd hform
      rw [← hl]
      exact take?_pos (hform ▸ h)
    · -- The token stays, and only its form has been looked at.
      have h : p t.form = false := Bool.not_eq_true _ ▸ h
      refine settled_of_next (fun us hu => ?_) (by rw [take?_neg h]; rfl)
      rw [take?_neg h]
      cases us with
      | nil => cases hu
      | cons u us =>
        have hu : u.form = t.form := Option.some.inj hu
        exact take?_neg (hu ▸ h)

theorem Settled.bind {k : α → Rule β} (hr : Settled α r ts)
    (hk : ∀ v rest, r ts = .ok v rest → Settled β (k v) rest) : Settled β (r >>= k) ts := by
  cases h : r ts with
  | error e rest =>
    obtain ⟨used, hts, hr⟩ := hr.of_error h
    rw [Settled, bind_of_error h]
    exact ⟨used, hts, fun used' rest' hu hn => bind_of_error (hr used' rest' hu hn)⟩
  | ok v rest =>
    obtain ⟨used, hts, hr⟩ := hr.of_ok h
    obtain ⟨used₂, hrest, hk⟩ := hk v rest h
    rw [Settled, bind_of_ok h]
    refine ⟨used ++ used₂, by rw [List.append_assoc, hrest, hts], fun used' rest' hu hn => ?_⟩
    obtain ⟨us, vs, rfl, hu, hv⟩ := Alike.append_iff.mp hu
    -- The first rule sees one token beyond its own: of the second part, or of what follows it.
    have hnext : next (vs ++ rest') = next rest := by
      rw [← hrest]
      exact next_append_of_alike hv hn
    rw [List.append_assoc, bind_of_ok (hr us _ hu hnext)]
    exact hk vs rest' hv hn

/-- **Every rule is settled** by the tokens it takes and the next one. -/
theorem stepwise_settled : Stepwise Settled where
  pure v ts := settled_of_next (fun _ _ => rfl) rfl
  look ts := settled_of_next (fun us hu => by rw [look, look, hu]; rfl) rfl
  take? p ts := settled_take? p ts
  stop e ts := settled_of_next (fun _ _ => rfl) rfl
  bind := Settled.bind

end Pocl.Grammar.Rule
