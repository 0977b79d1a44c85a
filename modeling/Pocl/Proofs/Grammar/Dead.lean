import Pocl.Proofs.Grammar.Alphabet
import Pocl.Proofs.Grammar.Image
import Pocl.Proofs.Grammar.Refusal

/-!
# Tokens without grammar

Some tokens have a form that no production takes: what scanning could not make out, the words that
are reserved for later, and the operator `..` among them. Parsing never gets past such a token. It
stops there or earlier, however deeply the token is nested.

## Main definitions

* `Token.Dead`: no production takes the token
* `StopsBy ts k`: parsing stops at a token of the list whose index is at most `k`

## Main results

* `dead_iff_not_inAlphabet`: the dead tokens are those that are not of the alphabet
* `stopsBy_of_dead`: parsing stops by the first dead token
* `stopsBy_dead_token`: so it does for the dead tokens of source texts
-/

namespace Pocl

open Grammar

variable {source : String} {ts : List Token} {t : Token} {k : Nat}

/-- No production takes the token. A comma is a separator whatever its class. -/
def Token.Dead (t : Token) : Prop :=
  t.lexeme ≠ "," ∧
    (t.kind = .error ∨ t.kind = .unknown ∨
      t.kind = .keyword ∧ t.lexeme ∉ ["fn", "if", "print"] ∨
      t.kind = .operator ∧ t.lexeme ∉ ["=", "+=", "+", "-", "*", "/"] ∨
      t.kind = .paren ∧ t.lexeme ∉ ["(", ")"] ∨
      t.kind = .brace ∧ t.lexeme ∉ ["\x7b", "\x7d"])

/-- Parsing stops at a token of the list whose index is at most `k`, and reports it. -/
def StopsBy (ts : List Token) (k : Nat) : Prop :=
  ∃ e i t, parse ts = .error e ∧ e.found = some t ∧ errorIndex? ts = some i ∧ ts[i]? = some t ∧
    i ≤ k

/-! ## Token lists -/

theorem dead_iff_not_inAlphabet : t.Dead ↔ ¬ InAlphabet t.form := by
  cases hk : t.kind <;> simp [Token.Dead, InAlphabet, Token.form, terminals, hk]

/-- What can be completed to an accepted list is over the alphabet. -/
theorem Viable.overAlphabet (h : Viable ts) : OverAlphabet ts := by
  obtain ⟨us, p, hp⟩ := h
  exact (List.forall_mem_append.mp (derives_of_parse hp).overAlphabet).1

/-- **Parsing never gets past a dead token.** -/
theorem stopsBy_of_dead (hk : ts[k]? = some t) (ht : t.Dead) : StopsBy ts k := by
  have hform : ¬ InAlphabet t.form := dead_iff_not_inAlphabet.mp ht
  rcases accepted_or_exists_error ts with haccepted | ⟨e, he⟩
  · exact absurd ((viable_of_accepted haccepted).overAlphabet t (List.mem_of_getElem? hk)) hform
  obtain ⟨x, used, rest, rfl, -, rfl, hindex, hviable⟩ := exists_stop_of_parse_error he
  -- The tokens taken are over the alphabet, so the dead one is among those that are left.
  have hle : used.length ≤ k := by
    by_contra hlt
    rw [List.getElem?_append_left (Nat.lt_of_not_le hlt)] at hk
    exact hform (hviable.overAlphabet t (List.mem_of_getElem? hk))
  cases rest with
  | nil =>
    rw [List.append_nil, List.getElem?_eq_none hle] at hk
    cases hk
  | cons u us => exact ⟨_, used.length, u, he, Failure.found_error _, hindex, by simp, hle⟩

/-! ## Source texts -/

/-- Forms that scanning knows and no production takes. -/
def unusedForms : List (TokenKind × String) :=
  [(.error, "."), (.operator, ".."), (.keyword, "for"), (.keyword, "from"), (.keyword, "to")]

theorem shaped_of_mem_unusedForms {form : TokenKind × String} (h : form ∈ unusedForms) :
    Shaped form := by
  simp only [unusedForms, List.mem_cons, List.not_mem_nil, or_false] at h
  rcases h with rfl | rfl | rfl | rfl | rfl
  · exact ⟨by simp, rfl, not_false⟩
  · have hmem : ".." ∈ ["=", "+", "-", "*", "/", ".."] := by decide
    exact ⟨by simp, hmem⟩
  all_goals exact shaped_of_mem_keywords (by decide)

theorem not_inAlphabet_of_mem_unusedForms :
    ∀ form ∈ unusedForms, ¬ InAlphabet form := by
  simp [unusedForms, InAlphabet, terminals]

theorem dead_of_mem_scan (h : t ∈ scan source)
    (hl : t.lexeme ∈ [".", "..", "for", "from", "to"] ∨ t.kind = .unknown ∧ t.lexeme ≠ ",") :
    t.Dead := by
  rcases hl with hl | ⟨hk, hl⟩
  · obtain ⟨⟨kind, lexeme⟩, hmem, heq⟩ : ∃ form ∈ unusedForms, form.2 = t.lexeme :=
      List.mem_map.mp hl
    have hkind : t.kind = kind :=
      (shaped_of_mem_scan h).kind_eq (heq ▸ shaped_of_mem_unusedForms hmem)
    have hform : t.form = (kind, lexeme) := Prod.ext hkind heq.symm
    exact dead_iff_not_inAlphabet.mpr (hform ▸ not_inAlphabet_of_mem_unusedForms _ hmem)
  · exact ⟨hl, .inr (.inl hk)⟩

/-- Parsing stops by every dead token. So it never gets past a full stop, the operator `..`, a word
that is reserved for later or a character that scanning does not know, except for the separator. -/
theorem stopsBy_dead_token :
    (∀ ts k t, ts[k]? = some t → t.Dead → StopsBy ts k) ∧
      ∀ source k t, (scan source)[k]? = some t →
        (t.lexeme ∈ [".", "..", "for", "from", "to"] ∨ t.kind = .unknown ∧ t.lexeme ≠ ",") →
        StopsBy (scan source) k :=
  ⟨fun _ _ _ => stopsBy_of_dead,
    fun _ _ _ hk hl => stopsBy_of_dead hk (dead_of_mem_scan (List.mem_of_getElem? hk) hl)⟩

/-- Parsing stops at the operator `..` in the argument of a call, and before the word `from` where
something else is wrong earlier. -/
theorem stopsBy_nested_dots :
    let source := "if f(a, (b .. c)) \x7b \x7d"
    let dots : Token := ⟨.operator, "..", 13⟩
    let word : Token := ⟨.keyword, "from", 8⟩
    let ts : List Token := [⟨.identifier, "x", 1⟩, ⟨.paren, ")", 3⟩, word]
    (scan source)[7]? = some dots ∧ dots.lexeme ∈ [".", "..", "for", "from", "to"] ∧
      StopsBy (scan source) 7 ∧ ts[2]? = some word ∧ word.Dead ∧ StopsBy ts 2 := by
  intro source dots word ts
  have hdots : (scan source)[7]? = some dots := by decide +kernel
  have hlexeme : dots.lexeme ∈ [".", "..", "for", "from", "to"] := by decide
  have hword : word.Dead := by simp [Token.Dead, word]
  exact ⟨hdots, hlexeme, stopsBy_dead_token.2 source 7 dots hdots (.inl hlexeme), rfl, hword,
    stopsBy_dead_token.1 ts 2 word rfl hword⟩

end Pocl
