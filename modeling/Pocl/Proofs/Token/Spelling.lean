import Pocl.Proofs.Grammar.Rule
import Pocl.Proofs.Token.Tiling

/-!
# Spelling token lists

Every class has lexemes with the shape of that class, whatever stands around them. Written with a
blank between any two of them, such lexemes are scanned as they were chosen, so that scanning
reaches every list of them, and no other list.

## Main definitions

* `Shaped form`: the lexeme has the shape of its class by itself

## Main results

* `shaped_of_mem_scan`: scanned tokens have the shapes of their classes
* `map_form_scanFrom_intercalate`: lexemes with a space between them are scanned one by one
* `exists_scan_iff`: the token lists that scanning reaches, up to the places of the tokens
-/

namespace Pocl

variable {source : String} {post : List Char} {n : Nat} {t : Token} {form : TokenKind × String}
  {forms : List (TokenKind × String)}

/-- The lexeme has the shape of its class by itself. -/
def Shaped (form : TokenKind × String) : Prop :=
  form.2 ≠ "" ∧ Fits (fun _ => False) form.2 form.1

theorem shaped_of_mem_scan (h : t ∈ scan source) : Shaped t.form := by
  have hp := placed_of_mem_scan h
  exact ⟨hp.nonempty, hp.fits.mono fun _ _ => False.elim⟩

/-- A lexeme keeps its shape before a blank and at the end of the text. -/
theorem Shaped.fits (h : Shaped form) (hpost : ∀ c ∈ post.head?, isBlank c = true) :
    Fits (Leads post) form.2 form.1 := by
  refine h.2.mono ?_
  rintro p hp ⟨c, hc, hpc⟩
  rw [hp c (hpost c hc)] at hpc
  cases hpc

/-- The shape of a lexeme determines its class. -/
theorem Shaped.kind_eq {kind kind' : TokenKind} {lexeme : String} (h : Shaped (kind, lexeme))
    (h' : Shaped (kind', lexeme)) : kind = kind' := by
  obtain ⟨c, cs, hcs⟩ := List.exists_cons_of_ne_nil (mt String.toList_eq_nil_iff.mp h.1)
  have hcut {kind : TokenKind} (h : Shaped (kind, lexeme)) :
      cut c cs = ⟨kind, lexeme.toList, []⟩ :=
    cut_eq_of_fits h.1 (h.fits (by simp)) (by rw [List.append_nil, hcs])
  exact congrArg Cut.kind ((hcut h).symm.trans (hcut h'))

theorem scanFrom_append (hne : form.2 ≠ "") (h : Fits (Leads post) form.2 form.1) :
    scanFrom n (form.2.toList ++ post) = ⟨form.1, form.2, n + form.2.utf8ByteSize⟩ ::
      scanFrom (n + form.2.utf8ByteSize) post := by
  obtain ⟨c, cs, hcs⟩ := List.exists_cons_of_ne_nil (mt String.toList_eq_nil_iff.mp hne)
  have hcut : cut c (cs ++ post) = ⟨form.1, form.2.toList, post⟩ :=
    cut_eq_of_fits hne h (by rw [hcs, List.cons_append])
  have hc : isBlank c = false := h.not_isBlank c (hcs ▸ List.mem_cons_self)
  rw [hcs, List.cons_append, scanFrom_lexeme hc, cutToken, hcut, String.ofList_toList]

/-- Lexemes with a space between them are scanned one by one. -/
theorem map_form_scanFrom_intercalate (h : ∀ form ∈ forms, Shaped form) :
    (scanFrom n (" ".intercalate (forms.map Prod.snd)).toList).map Token.form = forms := by
  induction forms generalizing n with
  | nil => rw [List.map_nil, String.intercalate_nil, String.toList_empty, scanFrom, List.map_nil]
  | cons form forms ih =>
    obtain ⟨hform, hforms⟩ := List.forall_mem_cons.mp h
    cases forms with
    | nil =>
      rw [List.map_singleton, String.intercalate_singleton, ← List.append_nil form.2.toList,
        scanFrom_append hform.1 (hform.fits (by simp)), scanFrom]
      rfl
    | cons form' forms =>
      have hfits : ∀ cs, Fits (Leads (' ' :: cs)) form.2 form.1 := fun cs =>
        hform.fits (by simp [isBlank])
      have hspace : " ".toList = [' '] := rfl
      rw [List.map_cons, List.map_cons, String.intercalate_cons_cons, String.toList_append,
        String.toList_append, List.append_assoc, hspace, List.singleton_append,
        scanFrom_append hform.1 (hfits _), scanFrom_blank rfl, List.map_cons]
      exact congrArg _ (ih hforms)

theorem exists_scan_iff :
    (∃ source, (scan source).map Token.form = forms) ↔ ∀ form ∈ forms, Shaped form := by
  constructor
  · rintro ⟨source, rfl⟩ form hform
    obtain ⟨t, ht, rfl⟩ := List.mem_map.mp hform
    exact shaped_of_mem_scan ht
  · intro h
    exact ⟨_, map_form_scanFrom_intercalate h⟩

end Pocl
